import Mathlib.Logic.Function.Basic
import Mathlib.Algebra.Group.Nat.Defs
import VosStack.Queue.Cursor
import VosStack.Transition.Run

/-!
# Callouts

`kern_timeout.c` runs a function at a given time. An armed callout is linked into a bucket of
the *callwheel*; the bucket is given by the bits of its time from 2⁻⁸ s upwards. The clock
interrupt (`timercb`, `handleevents` in `kern_clocksource.c`) calls `callout_process` when the
time `nextcall` has come, or `nextcallopt`. That function scans the buckets from the last scan
up to now, moves the callouts whose time has come to `cc_expireq` for the `softclock` thread,
or calls them itself if they are *direct*, and looks ahead for the time of the next scan.

A step of the model is one section under `cc_lock`. Two sections are longer and are taken apart:
the scan, one list entry at a time with `cc_lock` held, and `softclock_call_cc`, which releases
`cc_lock`, takes the callout's own lock, and calls the handler. Any number of threads arm, stop
and drain callouts in between, and so may the handlers.

Times are `sbintime_t` from 0 on, with 32 fractional bits. Not modelled: several CPUs (the build
has no `SMP`), shared callout locks, the events of `handleevents` other than callouts, and the
programming of the timer, which is periodic here.

The primitives below this file are taken as FreeBSD documents them: `cc_lock`, the callouts' own
locks and the locks of the sleep queues exclude each other, which rests on the atomic operations,
and `wakeup` ends the sleep of those that sleep. A thread may also return from `sleepq_wait` at
any time. In this tree it always does so at once, as `mi_switch` only releases the lock of the
thread.

Besides the data of the source a `World` keeps a log of what was done.
-/

namespace VosStack.Timeout

/-- `SBT_1S`. -/
def sbt1s : ℕ := 2 ^ 32

/-- `SBT_MAX`. -/
def sbtMax : ℕ := 2 ^ 63 - 1

/-- `CC_HASH_SHIFT`. -/
def ccHashShift : ℕ := 8

/-- The bits of a time that select its bucket, before they are cut to a `u_int`. -/
def slot (sbt : ℕ) : ℕ := sbt / 2 ^ (32 - ccHashShift)

/-- `callout_hash`. -/
def calloutHash (sbt : ℕ) : BitVec 32 := BitVec.ofNat 32 (slot sbt)

/-- `fls`: the position of the highest bit set, from 1. -/
def fls (n : ℕ) : ℕ := if n = 0 then 0 else Nat.log2 n + 1

/-- What the start of the kernel fixes: `callwheelsize` is `1 << order`. -/
structure Setup (Lock : Type*) where
  order : ℕ
  order_lt : order < 31
  /-- `Giant` -/
  giant : Lock

/-- `callout_callwheel_init`, without its tunables. -/
def calloutCallwheelInit {Lock : Type*} (maxproc maxfiles : ℕ) (giant : Lock) : Setup Lock where
  order := fls (min (16 + maxproc + maxfiles) 18508)
  order_lt := by
    rw [fls]
    split
    · decide
    · next hne =>
      have h : min (16 + maxproc + maxfiles) 18508 < 2 ^ 15 := by omega
      have hlog := (Nat.log2_lt hne).mpr h
      omega
  giant := giant

section setup

variable {Lock : Type*} (cfg : Setup Lock)

/-- `callwheelsize`. -/
def Setup.callwheelsize : BitVec 32 := 1#32 <<< cfg.order

/-- `callwheelmask`. -/
def Setup.callwheelmask : BitVec 32 := cfg.callwheelsize - 1

/-- The index of a bucket in `cc_callwheel`. -/
def Setup.index (b : BitVec 32) : ℕ := (b &&& cfg.callwheelmask).toNat

/-- `callout_get_bucket`. -/
def Setup.calloutGetBucket (sbt : ℕ) : ℕ := cfg.index (calloutHash sbt)

end setup

/-- `struct callout`. -/
structure Callout (Lock Call : Type*) where
  time : ℕ
  precision : ℕ
  /-- `c_func` and `c_arg` -/
  call : Call
  /-- `c_lock` -/
  lock : Option Lock
  /-- `CALLOUT_PENDING` -/
  pending : Bool
  /-- `CALLOUT_PROCESSED` -/
  processed : Bool
  /-- `CALLOUT_DIRECT` -/
  direct : Bool
  /-- `CALLOUT_RETURNUNLOCKED` -/
  returnUnlocked : Bool
  /-- `CALLOUT_ACTIVE` -/
  active : Bool
  deriving DecidableEq, Repr

/-- `struct cc_exec`: what one of the two executors is doing. -/
structure Exec (Cid Call : Type*) where
  curr : Option Cid
  cancel : Bool
  waiting : Bool
  /-- the function that `callout_async_drain` wants called -/
  drain : Option Call
  deriving DecidableEq, Repr

/-- Where an executor is in `softclock_call_cc`. -/
inductive Stage (Cid Call : Type*)
  | idle
  /-- `cc_lock` is released, the lock of the callout not yet taken -/
  | entered (c : Cid) (call : Call)
  /-- the lock of the callout is taken, `cc_cancel` not yet tested -/
  | holding (c : Cid) (call : Call)
  /-- `cc_cancel` was found clear, and is not yet set -/
  | committed (c : Cid) (call : Call)
  /-- in the handler -/
  | running (c : Cid) (call : Call)
  /-- at `skip`, before `cc_lock` is taken again -/
  | returned (c : Cid)
  /-- in the drain function -/
  | draining (drain : Call)
  /-- before `wakeup` -/
  | waking
  deriving DecidableEq, Repr

/-- The executor is in `softclock_call_cc`. -/
def Stage.engaged {Cid Call : Type*} : Stage Cid Call → Bool
  | .idle => false
  | _ => true

/-- Where a thread is in `callout_drain`. The flag is `direct`, read on entry. -/
inductive Pc (Cid : Type*)
  | idle
  /-- at `again` -/
  | again (c : Cid) (direct : Bool)
  /-- wants the lock of the sleep queue -/
  | sleepq (c : Cid) (direct : Bool)
  /-- at `again`, with the sleep queue locked -/
  | locked (c : Cid) (direct : Bool)
  /-- `cc_waiting` is set and `cc_lock` released, the sleep queue still locked -/
  | adding (c : Cid) (direct : Bool)
  | asleep (c : Cid) (direct : Bool)
  deriving DecidableEq, Repr

/-- Where a thread is after a `wakeup` of those that sleep at the executor. -/
def Pc.woken {Cid : Type*} (direct : Bool) : Pc Cid → Pc Cid
  | .asleep c d => if d = direct then .again c d else .asleep c d
  | pc => pc

/-- Whoever calls into the subsystem: a thread, or the handler that an executor is in. -/
inductive Agent (Tid : Type*)
  | thread (t : Tid)
  | handler (direct : Bool)
  deriving DecidableEq, Repr

/-- Where an agent is in `_callout_stop_safe` without `CS_DRAIN`: it is going to take `cc_lock`.
The flag `direct` is read before. -/
structure Stopping (Cid Call : Type*) where
  c : Cid
  /-- `CALLOUT_DIRECT`, as it was read -/
  direct : Bool
  /-- `CS_EXECUTING` -/
  executing : Bool
  /-- the function given by `callout_async_drain` -/
  drain : Option Call
  deriving DecidableEq, Repr

/-- What is logged. -/
inductive Event (Cid Call : Type*)
  /-- `callout_reset_sbt_on`, with its result, and whether the callout was armed -/
  | reset (c : Cid) (time : ℕ) (call : Call) (cancelled armed : Bool)
  /-- `_callout_stop_safe` without `CS_DRAIN`: whether the caller holds the callout's lock,
  the flag `CS_EXECUTING`, whether a drain function is given, and the result -/
  | stop (c : Cid) (useLock executing drain : Bool) (result : ℤ)
  /-- `callout_drain`, with its result -/
  | drain (c : Cid) (result : ℤ)
  /-- the scan at `now` takes the callout off the wheel -/
  | expire (c : Cid) (now : ℕ)
  /-- an executor is going to call the handler -/
  | enter (c : Cid) (direct : Bool)
  /-- the handler is called -/
  | call (c : Cid) (direct : Bool) (call : Call)
  /-- the handler was not called, because of `cc_cancel` -/
  | skip (c : Cid) (direct : Bool)
  /-- the executor is done with the callout -/
  | leave (c : Cid) (direct : Bool)
  deriving DecidableEq, Repr

/-- The event is a call of the handler. -/
def Event.isCall {Cid Call : Type*} [DecidableEq Cid] (c : Cid) : Event Cid Call → Bool
  | .call c' _ _ => decide (c' = c)
  | _ => false

/-- The local variables of `callout_process`. -/
structure Scan (Cid : Type*) where
  now : ℕ
  firstb : BitVec 32
  lastb : BitVec 32
  nowb : BitVec 32
  first : ℕ
  last : ℕ
  max : ℕ
  tmp : Option Cid
  deriving DecidableEq, Repr

/-- How far a scan looks ahead. -/
def lookahead (firstb nowb : BitVec 32) : ℕ :=
  if nowb = firstb then sbt1s / 16
  else if nowb - firstb = 1 then sbt1s / 8
  else sbt1s

/-- The end of the look-ahead: the start of a bucket. -/
def lookaheadEnd (lastscan now : ℕ) : ℕ :=
  slot (now + lookahead (calloutHash lastscan) (calloutHash now)) * 2 ^ (32 - ccHashShift)

/-- `callout_process` up to its loop. -/
def Setup.beginScan {Cid Lock : Type*} (cfg : Setup Lock) (lastscan now : ℕ)
    (callwheel : ℕ → List Cid) : Scan Cid :=
  let firstb := calloutHash lastscan
  let nowb := calloutHash now
  let last := lookaheadEnd lastscan now
  let lastb := calloutHash last - 1
  let wrapped := cfg.callwheelsize ≤ lastb - firstb
  let wrapb := firstb + cfg.callwheelsize - 1
  { now := now
    firstb := firstb
    lastb := if wrapped then wrapb else lastb
    nowb := if wrapped ∧ cfg.callwheelsize ≤ nowb - firstb then wrapb else nowb
    first := now + lookahead firstb nowb / 2
    last := last
    max := last
    tmp := (callwheel (cfg.index firstb)).head? }

/-- The scan goes on with the next bucket. -/
def Setup.nextBucket {Cid Lock : Type*} (cfg : Setup Lock) (s : Scan Cid)
    (callwheel : ℕ → List Cid) : Scan Cid :=
  { s with
    firstb := s.firstb + 1
    tmp := (callwheel (cfg.index (s.firstb + 1))).head? }

/-- What the scan keeps in mind of a callout whose time has not come. -/
def Scan.lookAt {Cid : Type*} (s : Scan Cid) (time precision : ℕ) : Scan Cid :=
  if s.max ≤ time then s
  else if s.last < time then { s with lastb := s.nowb }
  else { s with first := min time s.first, last := min (time + precision) s.last }

/-- The state of the callout subsystem and of the threads that use it. -/
structure World (Cid Lock Call Tid : Type*) where
  callouts : Cid → Callout Lock Call
  /-- `cc_callwheel` -/
  callwheel : ℕ → List Cid
  /-- `cc_expireq` -/
  expireq : List Cid
  /-- `cc_exec_entity` -/
  exec : Bool → Exec Cid Call
  /-- `cc_next` -/
  next : Option Cid
  /-- `cc_bucket` -/
  bucket : ℕ
  /-- `cc_firstevent` -/
  firstevent : ℕ
  /-- `cc_lastscan` -/
  lastscan : ℕ
  /-- `now` of `struct pcpu_state`: the time of the last tick -/
  now : ℕ
  nextcall : ℕ
  nextcallopt : ℕ
  /-- the timers are being configured -/
  busy : Bool
  /-- the first tick after the timers were configured -/
  started : ℕ
  /-- the clock interrupt is in `callout_process` -/
  scan : Option (Scan Cid)
  /-- it has released `cc_lock` and is going to test `cc_expireq` -/
  scanned : Bool
  /-- `softclock` is scheduled -/
  swi : Bool
  /-- `softclock` is in its loop -/
  softclock : Bool
  stage : Bool → Stage Cid Call
  owner : Lock → Option (Agent Tid)
  /-- who has locked the sleep queues of the two `cc_waiting` -/
  sleepq : Bool → Option Tid
  thread : Tid → Pc Cid
  /-- the agents that are in `_callout_stop_safe` -/
  stopping : Agent Tid → Option (Stopping Cid Call)
  log : List (Event Cid Call)

/-- A step of one agent. -/
inductive Action (Cid Lock Call Tid : Type*)
  | configtimer (now period : ℕ)
  | stoptimer
  | tick (now : ℕ)
  | scan
  | swiSched
  | softclock
  | lockCallout (direct : Bool)
  | testCancel (direct : Bool)
  | call (direct : Bool)
  | handlerReturns (direct : Bool)
  | finish (direct : Bool)
  | drainReturns (direct : Bool)
  | wakeup (direct : Bool)
  | reset (a : Agent Tid) (c : Cid) (sbt precision : ℕ) (call : Call) (direct : Bool)
  | stop (a : Agent Tid) (c : Cid) (executing : Bool) (drain : Option Call)
  | stopTurn (a : Agent Tid)
  | drain (t : Tid) (c : Cid)
  | drainTurn (t : Tid)
  | lock (a : Agent Tid) (l : Lock)
  | unlock (a : Agent Tid) (l : Lock)
  deriving DecidableEq, Repr

namespace World

variable {Cid Lock Call Tid : Type*} [DecidableEq Cid] [DecidableEq Lock] [DecidableEq Tid]
variable (cfg : Setup Lock) (w : World Cid Lock Call Tid)

/-- `cc_lock` is free: the clock interrupt is not scanning, or is in a handler. -/
def free : Bool := w.scan.isNone || (w.stage true).engaged

/-- The agent is a thread outside `callout_drain`, or a handler that was called. -/
def isRunning : Agent Tid → Bool
  | .thread t =>
    match w.thread t with
    | .idle => true
    | _ => false
  | .handler d =>
    match w.stage d with
    | .running _ _ => true
    | .draining _ => true
    | _ => false

/-- The agent can call into the subsystem. -/
def canCall (a : Agent Tid) : Bool := w.isRunning a && (w.stopping a).isNone

/-! ### The event timer -/

/-- `cpu_new_callout`. -/
def cpuNewCallout (bt btOpt : ℕ) : World Cid Lock Call Tid :=
  { w with
    nextcallopt := if w.busy then w.nextcallopt else btOpt
    nextcall := if w.busy then w.nextcall else min bt w.nextcall }

/-- `configtimer(1)`. -/
def configtimer (now period : ℕ) : World Cid Lock Call Tid :=
  { w with
    now := now
    nextcall := now + period
    nextcallopt := now + period
    started := now + period
    busy := false }

/-! ### The lists -/

/-- `LIST_REMOVE` and the care for `cc_next`, or `TAILQ_REMOVE`. -/
def dequeue (c : Cid) : World Cid Lock Call Tid :=
  let k := w.callouts c
  let b := cfg.calloutGetBucket k.time
  { w with
    callouts := Function.update w.callouts c { k with pending := false, active := false }
    next := if k.processed then w.next else Queue.unlink (w.callwheel b) c w.next
    callwheel :=
      if k.processed then w.callwheel
      else Function.update w.callwheel b ((w.callwheel b).erase c)
    expireq := if k.processed then w.expireq.erase c else w.expireq }

/-- The time that `callout_cc_add` gives to a callout. -/
def timeFor (sbt : ℕ) : ℕ := max sbt w.lastscan

/-- The precision that `callout_cc_add` gives to a callout: its sum with the time is kept
in range. -/
def precisionFor (time precision : ℕ) : ℕ := min precision (sbtMax - time)

/-- `callout_cc_add` up to the insertion. -/
def insertHead (c : Cid) (time precision : ℕ) (call : Call) (direct : Bool) :
    World Cid Lock Call Tid :=
  let k := w.callouts c
  let b := cfg.calloutGetBucket time
  { w with
    callouts := Function.update w.callouts c
      { k with
        time := time
        precision := precision
        call := call
        pending := true
        processed := false
        active := true
        direct := k.direct || direct }
    callwheel := Function.update w.callwheel b (c :: w.callwheel b)
    next := if w.bucket = b then some c else w.next }

/-- The end of `callout_cc_add`: the event timer is told of an earlier event. -/
def informTimer (sbt time : ℕ) : World Cid Lock Call Tid :=
  if sbt < w.firstevent then { w with firstevent := sbt }.cpuNewCallout sbt time else w

/-- `callout_cc_add`. -/
def calloutCcAdd (c : Cid) (sbt precision : ℕ) (call : Call) (direct : Bool) :
    World Cid Lock Call Tid :=
  let time := w.timeFor sbt
  let precision := precisionFor time precision
  (w.insertHead cfg c time precision call direct).informTimer (time + precision) time

/-! ### The executors -/

/-- The start of `softclock_call_cc`, up to the release of `cc_lock`. -/
def softclockCallCc (c : Cid) (direct : Bool) : World Cid Lock Call Tid :=
  let k := w.callouts c
  { w with
    callouts := Function.update w.callouts c { k with pending := false }
    exec := Function.update w.exec direct
      { w.exec direct with curr := some c, cancel := false, drain := none }
    stage := Function.update w.stage direct (.entered c k.call)
    log := w.log ++ [Event.enter c direct] }

/-- The executor takes the lock of the callout. -/
def lockCallout (direct : Bool) (c : Cid) (call : Call) (l : Lock) : World Cid Lock Call Tid :=
  { w with
    owner := Function.update w.owner l (some (.handler direct))
    stage := Function.update w.stage direct (.holding c call) }

/-- `cc_cancel` is clear: the handler is going to be called. The test is made under the lock of
the callout, without `cc_lock`. -/
def commit (direct : Bool) (c : Cid) (call : Call) : World Cid Lock Call Tid :=
  { w with stage := Function.update w.stage direct (.committed c call) }

/-- `cc_cancel` is set: the handler is not called. -/
def skip (direct : Bool) (c : Cid) (l : Lock) : World Cid Lock Call Tid :=
  { w with
    owner := Function.update w.owner l none
    stage := Function.update w.stage direct (.returned c)
    log := w.log ++ [Event.skip c direct] }

/-- The handler is called; a callout with a lock cannot be stopped from now on. -/
def callHandler (direct : Bool) (c : Cid) (call : Call) : World Cid Lock Call Tid :=
  { w with
    exec := Function.update w.exec direct
      { w.exec direct with cancel := (w.exec direct).cancel || (w.callouts c).lock.isSome }
    stage := Function.update w.stage direct (.running c call)
    log := w.log ++ [Event.call c direct call] }

/-- The handler returns with the lock of its callout, or has released it. -/
def handlerReturns (direct : Bool) (c : Cid) : World Cid Lock Call Tid :=
  { w with
    owner :=
      match (w.callouts c).lock with
      | some l =>
        if (w.callouts c).returnUnlocked then w.owner else Function.update w.owner l none
      | none => w.owner
    stage := Function.update w.stage direct (.returned c) }

/-- An executor is done. The one in the clock interrupt goes on with the scan at `cc_next`. -/
def retire (direct : Bool) : World Cid Lock Call Tid :=
  { w with
    stage := Function.update w.stage direct .idle
    scan := if direct then w.scan.map fun s => { s with tmp := w.next } else w.scan
    next := if direct then none else w.next }

/-- The end of `softclock_call_cc`: threads that wait in `callout_drain` are to be woken. -/
def wakeWaiting (direct : Bool) : World Cid Lock Call Tid :=
  if (w.exec direct).waiting then
    { w with
      exec := Function.update w.exec direct { w.exec direct with waiting := false }
      stage := Function.update w.stage direct .waking }
  else w.retire direct

/-- `softclock_call_cc` after `skip`. -/
def finish (direct : Bool) (c : Cid) : World Cid Lock Call Tid :=
  let w' := { w with
    exec := Function.update w.exec direct
      { w.exec direct with curr := none, drain := none }
    log := w.log ++ [Event.leave c direct] }
  match (w.exec direct).drain with
  | some f => { w' with stage := Function.update w.stage direct (.draining f) }
  | none => w'.wakeWaiting direct

/-- `wakeup`. -/
def wakeup (direct : Bool) : World Cid Lock Call Tid :=
  { w with thread := fun t => (w.thread t).woken direct }.retire direct

/-- A turn of the loop of `softclock`. -/
def softclockTurn : World Cid Lock Call Tid :=
  match w.expireq with
  | [] => { w with softclock := false }
  | c :: q => { w with expireq := q }.softclockCallCc c false

/-! ### The scan -/

/-- The start of `callout_process`. -/
def calloutProcess (now : ℕ) : World Cid Lock Call Tid :=
  { w with
    lastscan := now
    scan := some (cfg.beginScan w.lastscan now w.callwheel) }

/-- `handleevents`, as far as callouts are concerned. -/
def handleevents (now : ℕ) : World Cid Lock Call Tid :=
  if w.nextcallopt ≤ now ∨ w.nextcall ≤ now then
    { w with now := now, nextcall := sbtMax, nextcallopt := sbtMax }.calloutProcess cfg now
  else { w with now := now }

/-- Past the end of the last bucket. -/
def scanDone (s : Scan Cid) : World Cid Lock Call Tid :=
  { w with
    firstevent := s.last
    scan := none
    scanned := true }.cpuNewCallout s.last s.first

/-- At the end of a bucket. -/
def nextBucket (s : Scan Cid) : World Cid Lock Call Tid :=
  if (s.firstb + 1 - s.lastb).toInt ≤ 0 then
    { w with scan := some (cfg.nextBucket s w.callwheel) }
  else w.scanDone s

/-- The time of a direct callout has come. -/
def takeDirect (s : Scan Cid) (c : Cid) : World Cid Lock Call Tid :=
  let b := cfg.index s.firstb
  { w with
    next := Queue.next (w.callwheel b) c
    bucket := b
    callwheel := Function.update w.callwheel b ((w.callwheel b).erase c)
    log := w.log ++ [Event.expire c s.now] }.softclockCallCc c true

/-- The time of another callout has come. -/
def expire (s : Scan Cid) (c : Cid) : World Cid Lock Call Tid :=
  let b := cfg.index s.firstb
  { w with
    callwheel := Function.update w.callwheel b ((w.callwheel b).erase c)
    expireq := w.expireq ++ [c]
    callouts := Function.update w.callouts c { w.callouts c with processed := true }
    scan := some { s with tmp := Queue.next (w.callwheel b) c }
    log := w.log ++ [Event.expire c s.now] }

/-- A turn of the inner loop of `callout_process`. -/
def scanTurn (s : Scan Cid) : World Cid Lock Call Tid :=
  match s.tmp with
  | none => w.nextBucket cfg s
  | some c =>
    if (w.callouts c).time ≤ s.now then
      if (w.callouts c).direct then w.takeDirect cfg s c else w.expire cfg s c
    else
      { w with
        scan := some
          { s.lookAt (w.callouts c).time (w.callouts c).precision with
            tmp := Queue.next (w.callwheel (cfg.index s.firstb)) c } }

/-! ### The interface -/

/-- The result of `callout_reset_sbt_on`, and whether it arms the callout. -/
def resetResult (c : Cid) (direct : Bool) : Bool × Bool :=
  let e := w.exec direct
  let k := w.callouts c
  let cancelled := decide (e.curr = some c) && k.lock.isSome && !e.cancel
  if e.curr = some c ∧ (e.waiting ∨ e.drain.isSome) then (cancelled, false)
  else (cancelled || k.pending, true)

/-- A callout with a lock that is about to be called is cancelled. -/
def cancelCurr (c : Cid) (direct : Bool) : World Cid Lock Call Tid :=
  let e := w.exec direct
  { w with
    exec := Function.update w.exec direct
      { e with
        cancel := e.cancel || decide (e.curr = some c) && (w.callouts c).lock.isSome } }

/-- A pending callout is taken off its list. -/
def dequeueIf (c : Cid) : World Cid Lock Call Tid :=
  if (w.callouts c).pending then w.dequeue cfg c else w

/-- `callout_reset_sbt_on`, from `callout_lock` on. -/
def calloutReset (c : Cid) (sbt precision : ℕ) (call : Call) (direct : Bool) :
    World Cid Lock Call Tid :=
  let r := w.resetResult c direct
  let w' := { w.cancelCurr c direct with
    log := w.log ++ [Event.reset c (w.timeFor sbt) call r.1 r.2] }
  if r.2 then (w'.dequeueIf cfg c).calloutCcAdd cfg c sbt precision call direct else w'

/-- `use_lock` of `_callout_stop_safe`: the agent holds the lock of the callout. It is computed
before `cc_lock` is taken, which makes no difference: nobody else gives the lock to the agent or
takes it away. -/
def useLock (a : Agent Tid) (c : Cid) : Bool :=
  match (w.callouts c).lock with
  | some l => decide (w.owner l = some a)
  | none => false

/-- The callout is about to be called and can be cancelled. -/
def stoppable (a : Agent Tid) (c : Cid) (direct : Bool) (drain : Option Call) : Bool :=
  w.useLock a c && !(w.exec direct).cancel && drain.isNone

/-- The executor that `_callout_stop_safe` looks at has the callout. -/
def current (c : Cid) (direct : Bool) : Bool := decide ((w.exec direct).curr = some c)

/-- The result of `_callout_stop_safe` without `CS_DRAIN`. -/
def stopResult (a : Agent Tid) (c : Cid) (direct executing : Bool) (drain : Option Call) : ℤ :=
  if w.current c direct then if w.stoppable a c direct drain || executing then 1 else 0
  else if (w.callouts c).pending then 1 else -1

/-- `_callout_stop_safe` without `CS_DRAIN`, from `callout_lock` on. -/
def calloutStop (a : Agent Tid) (c : Cid) (direct executing : Bool) (drain : Option Call) :
    World Cid Lock Call Tid :=
  let k := w.callouts c
  let e := w.exec direct
  let curr := w.current c direct
  let w' := { w with
    callouts := Function.update w.callouts c { k with active := k.active && !curr }
    stopping := Function.update w.stopping a none
    log := w.log ++ [Event.stop c (w.useLock a c) executing drain.isSome
      (w.stopResult a c direct executing drain)] }
  if curr && w.stoppable a c direct drain then
    { w' with exec := Function.update w.exec direct { e with cancel := true } }
  else
    { w' with
      exec := Function.update w.exec direct
        { e with drain := if curr then drain <|> e.drain else e.drain } }.dequeueIf cfg c

/-- The end of `callout_drain`: the callout is not running. -/
def drainDone (t : Tid) (c : Cid) : World Cid Lock Call Tid :=
  { w with
    thread := Function.update w.thread t .idle
    log := w.log ++ [Event.drain c (if (w.callouts c).pending then 1 else -1)] }.dequeueIf cfg c

/-- The next section of `callout_drain`. -/
def drainTurn (t : Tid) : Pc Cid → Option (World Cid Lock Call Tid)
  | .again c direct =>
    if w.free then
      if (w.exec direct).curr = some c then
        some { w with thread := Function.update w.thread t (.sleepq c direct) }
      else some (w.drainDone cfg t c)
    else none
  | .sleepq c direct =>
    if w.sleepq direct = none then
      some { w with
        sleepq := Function.update w.sleepq direct (some t)
        thread := Function.update w.thread t (.locked c direct) }
    else none
  | .locked c direct =>
    if w.free then
      if (w.exec direct).curr = some c then
        some { w with
          exec := Function.update w.exec direct { w.exec direct with waiting := true }
          thread := Function.update w.thread t (.adding c direct) }
      else some ({ w with
        sleepq := Function.update w.sleepq direct none }.drainDone cfg t c)
    else none
  | .adding c direct =>
    some { w with
      sleepq := Function.update w.sleepq direct none
      thread := Function.update w.thread t (.asleep c direct) }
  | .idle => none
  -- `sleepq_wait` returns without a `wakeup`
  | .asleep c direct => some { w with thread := Function.update w.thread t (.again c direct) }

/-! ### Steps -/

/-- `_callout_init_lock`. `callout_init` gives no lock and `CALLOUT_RETURNUNLOCKED`, or `Giant`. -/
def calloutInitLock (lock : Option Lock) (returnUnlocked : Bool) (call : Call) :
    Callout Lock Call where
  time := 0
  precision := 0
  call := call
  lock := lock
  pending := false
  processed := false
  direct := false
  returnUnlocked := returnUnlocked
  active := false

/-- The state after `callout_callwheel_init`, `cpu_initclocks_bsp` and the initialisation of the
callouts: nothing is armed, and the timers are not yet configured. -/
def init (lock : Cid → Option Lock) (returnUnlocked : Cid → Bool) (call : Call) :
    World Cid Lock Call Tid where
  callouts c := calloutInitLock (lock c) (returnUnlocked c) call
  callwheel _ := []
  expireq := []
  exec _ := ⟨none, false, false, none⟩
  next := none
  bucket := 0
  firstevent := sbtMax
  lastscan := 0
  now := 0
  nextcall := sbtMax
  nextcallopt := sbtMax
  busy := true
  started := 0
  scan := none
  scanned := false
  swi := false
  softclock := false
  stage _ := .idle
  owner _ := none
  sleepq _ := none
  thread _ := .idle
  stopping _ := none
  log := []

/-- The clock interrupt is not in progress and can start: `timercb` does nothing while the
timers are being configured. -/
def canTick (now : ℕ) : Prop :=
  w.busy = false ∧ w.scan = none ∧ w.scanned = false ∧ w.now ≤ now ∧ now + sbt1s ≤ sbtMax

instance (now : ℕ) : Decidable (w.canTick now) := inferInstanceAs (Decidable (_ ∧ _))

/-- The handler may return: what has to be unlocked then is locked by it. A callout that was
initialised with neither a lock nor `CALLOUT_RETURNUNLOCKED` crashes here. -/
def canReturn (direct : Bool) (c : Cid) : Bool :=
  (w.callouts c).returnUnlocked ||
    match (w.callouts c).lock with
    | some l => decide (w.owner l = some (.handler direct))
    | none => false

/-- The assertion of `_callout_stop_safe`: the caller holds the lock, unless it is `Giant`. -/
def canStop (a : Agent Tid) (c : Cid) : Bool :=
  match (w.callouts c).lock with
  | some l => decide (l = cfg.giant) || decide (w.owner l = some a)
  | none => true

/-- What one step does, or `none` if the agent cannot take it now. -/
def step : Action Cid Lock Call Tid → Option (World Cid Lock Call Tid)
  | .configtimer now period =>
    if w.now ≤ now then some (w.configtimer now period) else none
  | .stoptimer => some { w with busy := true }
  | .tick now => if w.canTick now then some (w.handleevents cfg now) else none
  | .scan => match w.scan, w.stage true with
    | some s, .idle => some (w.scanTurn cfg s)
    | _, _ => none
  | .swiSched =>
    if w.scanned then
      some { w with scanned := false, swi := w.swi || !w.expireq.isEmpty }
    else none
  | .softclock =>
    if w.softclock then
      match w.stage false with
      | .idle => if w.free then some w.softclockTurn else none
      | _ => none
    else if w.swi then some { w with swi := false, softclock := true }
    else none
  | .lockCallout d => match w.stage d with
    | .entered c call => match (w.callouts c).lock with
      | some l => if w.owner l = none then some (w.lockCallout d c call l) else none
      | none => none
    | _ => none
  | .testCancel d => match w.stage d with
    | .holding c call => match (w.callouts c).lock with
      | some l => some (if (w.exec d).cancel then w.skip d c l else w.commit d c call)
      | none => none
    | _ => none
  | .call d => match w.stage d with
    | .entered c call =>
      if (w.callouts c).lock = none then some (w.callHandler d c call) else none
    | .committed c call => some (w.callHandler d c call)
    | _ => none
  | .handlerReturns d => match w.stage d with
    | .running c _ =>
      if w.canReturn d c ∧ (w.stopping (.handler d)).isNone then some (w.handlerReturns d c)
      else none
    | _ => none
  | .finish d => match w.stage d with
    | .returned c => if w.free then some (w.finish d c) else none
    | _ => none
  | .drainReturns d => match w.stage d with
    | .draining _ =>
      if w.free ∧ (w.stopping (.handler d)).isNone then some (w.wakeWaiting d) else none
    | _ => none
  | .wakeup d => match w.stage d with
    | .waking => if w.sleepq d = none then some (w.wakeup d) else none
    | _ => none
  | .reset a c sbt precision call direct =>
    if w.canCall a ∧ w.free ∧ sbt ≤ sbtMax then
      some (w.calloutReset cfg c sbt precision call direct)
    else none
  | .stop a c executing drain =>
    if w.canCall a ∧ w.canStop cfg a c then
      some { w with
        stopping := Function.update w.stopping a
          (some ⟨c, (w.callouts c).direct, executing, drain⟩) }
    else none
  | .stopTurn a => match w.stopping a with
    | some s =>
      if w.isRunning a ∧ w.free then
        some (w.calloutStop cfg a s.c s.direct s.executing s.drain)
      else none
    | none => none
  | .drain t c =>
    if w.canCall (.thread t) then
      some { w with thread := Function.update w.thread t (.again c (w.callouts c).direct) }
    else none
  | .drainTurn t => w.drainTurn cfg t (w.thread t)
  | .lock a l =>
    if w.canCall a ∧ w.owner l = none then
      some { w with owner := Function.update w.owner l (some a) }
    else none
  | .unlock a l =>
    if w.canCall a ∧ w.owner l = some a then
      some { w with owner := Function.update w.owner l none }
    else none

end World

end VosStack.Timeout
