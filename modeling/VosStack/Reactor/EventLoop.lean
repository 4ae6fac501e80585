import Mathlib.Logic.Function.Basic
import VosStack.Reactor.Queue
import VosStack.Transition.Run

/-!
# The reactor's event queue and event loop

`CFSReactorEpoll::RunEventLoop` waits in `vos_epoll_wait`, handles what was reported and
drains the event queue (`ProcessHandleEvent(-1, …)`) before it waits again. Other threads
and the handlers themselves post events. `PostEvent` appends under the queue's mutex and
calls `Notify` only if the size of the queue was zero; `Notify` writes a record to a pipe whose
read end is registered edge-triggered, so that a write makes the current or the next wait return.

A step is the thread-local work up to one access of shared state: the queue (under its
mutex), the stop flag, the pipe. Between its update and its `Notify` a caller is in the
state `posted` or `stopping`. The callers are any number of threads `some t` and, inside a
handler, the loop thread itself, `none`; the loop goes on only when its own call is done.

`edge` says that a record has been written since the pipe was last reported. A wait may
return without reporting it, but it never forgets it. `CFSReactorNotifyPipe::OnInput` reads
one record only; `pipe` may thus hold records that nobody will be told about again.
-/

namespace VosStack.Reactor

open EventQueue (CFSEventQueueBase maxGetOnce)

/-- A record written by `Notify`: the handler it names. -/
inductive Record
  /-- no handler (`-1`): the event queue -/
  | eventQueue
  /-- the notify pipe itself, written by `StopEventLoop` -/
  | self
  /-- any other handler -/
  | handler
  deriving DecidableEq, Repr

/-- Where a caller of `PostEvent` or `StopEventLoop` is. -/
inductive CallPos
  | idle
  /-- the event is in the queue, `Notify` is still to come -/
  | posted
  /-- the stop flag is set, `Notify` is still to come -/
  | stopping
  deriving DecidableEq, Repr

/-- A descriptor that `vos_epoll_wait` reports. -/
inductive Reported
  | notifyPipe
  | other
  deriving DecidableEq, Repr

/-- What `ProcessHandleEvent(-1, …)` returns to. -/
inductive Return
  /-- the notify handler, with these reports still to be handled -/
  | toHandlers (rs : List Reported)
  /-- the end of the loop body -/
  | toLoop
  deriving DecidableEq, Repr

/-- Where the loop thread is in `RunEventLoop`. -/
inductive LoopPos (ε : Type*)
  /-- about to test the stop flag -/
  | check
  /-- in `CheckExpire` -/
  | timers
  /-- about to wait -/
  | enter
  /-- in `vos_epoll_wait`; `timeout` if the wait is bounded -/
  | wait (timeout : Bool)
  /-- the reports still to be handled -/
  | handlers (rs : List Reported)
  /-- in `ProcessHandleEvent(-1, …)`, about to pop the pending events -/
  | drain (k : Return)
  /-- in `ProcessEvents`, with `dwRemainSize = remain` -/
  | firing (batch : List ε) (remain : BitVec 32) (k : Return)
  /-- about to `Notify` because events remained -/
  | renotify (k : Return)
  | exited
  deriving DecidableEq, Repr

/-- The position after `ProcessHandleEvent(-1, …)`. -/
def Return.next {ε : Type*} : Return → LoopPos ε
  | .toHandlers rs => .handlers rs
  | .toLoop => .check

/-- The loop thread is running a handler, a timer or an event, which may call the reactor. -/
def LoopPos.inHandler {ε : Type*} : LoopPos ε → Bool
  | .timers => true
  | .handlers _ => true
  | .firing .. => true
  | _ => false

/-- The reactor with all threads that use it. -/
structure World (Tid ε : Type*) where
  queue : CFSEventQueueBase ε
  /-- `m_bStoppedFlag` of the reactor -/
  stopFlag : Bool
  pipe : List Record
  edge : Bool
  caller : Option Tid → CallPos
  loop : LoopPos ε
  /-- the events accepted so far -/
  accepted : List ε
  /-- the events fired so far -/
  fired : List ε

namespace World

variable {Tid ε : Type*} [DecidableEq Tid]

/-- An open reactor at the start of its loop. -/
def init : World Tid ε where
  queue := ⟨[], 0, false⟩
  stopFlag := false
  pipe := []
  edge := false
  caller := fun _ => .idle
  loop := .check
  accepted := []
  fired := []

/-! ### The callers -/

/-- `c` may start a call: it is not in one, and the loop thread calls only from handlers. -/
def MayCall (w : World Tid ε) (c : Option Tid) : Prop :=
  w.caller c = .idle ∧ (c = none → w.loop.inHandler = true)

instance (w : World Tid ε) (c : Option Tid) : Decidable (w.MayCall c) :=
  inferInstanceAs (Decidable (_ ∧ _))

/-- `CFSReactorNotifyPipe::Notify`. -/
def write (w : World Tid ε) (r : Record) : World Tid ε :=
  { w with pipe := w.pipe ++ [r], edge := true }

/-- `CFSReactorBase::PostEvent` up to its `Notify`. -/
def postEvent (w : World Tid ε) (c : Option Tid) (e : ε) : Option (World Tid ε) :=
  if w.MayCall c then
    let (queue, rv, dwOldSize) := w.queue.postEventWithOldSize e
    some { w with
      queue
      accepted := if rv.succeeded then w.accepted ++ [e] else w.accepted
      caller := Function.update w.caller c
        (if rv.succeeded ∧ dwOldSize = 0 then .posted else .idle) }
  else none

/-- `StopEventLoop` up to its `Notify`. -/
def stopEventLoop (w : World Tid ε) (c : Option Tid) : Option (World Tid ε) :=
  if w.MayCall c then
    some { w with stopFlag := true, caller := Function.update w.caller c .stopping }
  else none

/-- The `Notify` of a `PostEvent` or `StopEventLoop`. -/
def notify (w : World Tid ε) (c : Option Tid) : Option (World Tid ε) :=
  match w.caller c with
  | .idle => none
  | .posted => some { w.write .eventQueue with caller := Function.update w.caller c .idle }
  | .stopping => some { w.write .self with caller := Function.update w.caller c .idle }

/-- `NotifyHandler` with a handler. -/
def notifyHandler (w : World Tid ε) (c : Option Tid) : Option (World Tid ε) :=
  if w.MayCall c then some (w.write .handler) else none

/-! ### The loop -/

/-- The steps of the loop thread that are not a wait. -/
def loopNext (w : World Tid ε) : Option (World Tid ε) :=
  if w.caller none = .idle then
    match w.loop with
    | .check => some { w with loop := if w.stopFlag then .exited else .timers }
    | .timers => some { w with loop := .enter }
    | .handlers [] => some { w with loop := .drain .toLoop }
    | .handlers (.other :: rs) => some { w with loop := .handlers rs }
    | .handlers (.notifyPipe :: rs) =>
        match w.pipe with
        | [] => some { w with loop := .handlers rs }
        | .eventQueue :: p => some { w with pipe := p, loop := .drain (.toHandlers rs) }
        | .self :: p => some { w with pipe := p, loop := .handlers rs }
        | .handler :: p => some { w with pipe := p, loop := .handlers (.other :: rs) }
    | .drain k =>
        match w.queue.popPendingEvents maxGetOnce with
        | none => some { w with loop := k.next }
        | some (queue, batch, dwRemainSize) =>
          some { w with queue, loop := .firing batch dwRemainSize k }
    | .firing (e :: es) remain k =>
        some { w with fired := w.fired ++ [e], loop := .firing es remain k }
    | .firing [] remain k =>
        some { w with loop := if remain ≠ 0 then .renotify k else k.next }
    | .renotify k => some { w.write .eventQueue with loop := k.next }
    | .enter => none
    | .wait _ => none
    | .exited => none
  else none

/-- Enter `vos_epoll_wait`, bounded or not. -/
def enterWait (w : World Tid ε) (timeout : Bool) : Option (World Tid ε) :=
  match w.loop with
  | .enter => some { w with loop := .wait timeout }
  | _ => none

/-- A timeout that is neither `-1` nor `≥ 0` skips the wait; `nfds` is then `0`. -/
def skipWait (w : World Tid ε) : Option (World Tid ε) :=
  match w.loop with
  | .enter => some { w with loop := .drain .toLoop }
  | _ => none

/-- The wait returns reports. The pipe is reported only if it was written since, and the
report uses up the edge. -/
def waitReturn (w : World Tid ε) (rs : List Reported) : Option (World Tid ε) :=
  match w.loop with
  | .wait _ =>
      if rs ≠ [] ∧ (.notifyPipe ∈ rs → w.edge = true) then
        some { w with
          loop := .handlers rs
          edge := if .notifyPipe ∈ rs then false else w.edge }
      else none
  | _ => none

/-- A bounded wait times out: `nfds` is `0`. -/
def waitTimeout (w : World Tid ε) : Option (World Tid ε) :=
  match w.loop with
  | .wait true => some { w with loop := .drain .toLoop }
  | _ => none

/-- The wait fails, `EINTR` included: the loop returns. -/
def waitFailed (w : World Tid ε) : Option (World Tid ε) :=
  match w.loop with
  | .wait _ => some { w with loop := .exited }
  | _ => none

/-! ### The system -/

/-- The actions of the callers and of the loop. -/
inductive Action (Tid ε : Type*)
  | postEvent (c : Option Tid) (e : ε)
  | stopEventLoop (c : Option Tid)
  | notify (c : Option Tid)
  | notifyHandler (c : Option Tid)
  /-- the queue is stopped -/
  | stopQueue
  | loopNext
  | enterWait (timeout : Bool)
  | skipWait
  | waitReturn (rs : List Reported)
  | waitTimeout
  | waitFailed
  deriving DecidableEq, Repr

/-- One step of one thread. -/
def step (w : World Tid ε) : Action Tid ε → Option (World Tid ε)
  | .postEvent c e => w.postEvent c e
  | .stopEventLoop c => w.stopEventLoop c
  | .notify c => w.notify c
  | .notifyHandler c => w.notifyHandler c
  | .stopQueue => some { w with queue := w.queue.stop }
  | .loopNext => w.loopNext
  | .enterWait timeout => w.enterWait timeout
  | .skipWait => w.skipWait
  | .waitReturn rs => w.waitReturn rs
  | .waitTimeout => w.waitTimeout
  | .waitFailed => w.waitFailed

end World

end VosStack.Reactor
