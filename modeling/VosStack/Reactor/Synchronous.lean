import Mathlib.Logic.Function.Basic
import VosStack.Reactor.Queue
import VosStack.Transition.Run

/-!
# Synchronous events

`SendEvent` from another thread wraps the event in a `CFSEventSynchronous`, posts the wrapper and
waits in it for the result. Two calls of `OnDestorySelf` end the wrapper: the first one destroys
the wrapped event, the second one deletes the wrapper. For the second one the sender posts the
wrapper again when it has been woken.

The thread of the queue pops the pending events and handles them one after another, each with
`OnEventFire` and `OnDestorySelf`. When its loop has ended it closes the reactor and
`DestoryPendingEvents` calls `OnDestorySelf` on what is still queued. The senders run
concurrently. `OnDestorySelf` reads `m_bHasDestoryed`, sets it, destroys the wrapped event and
clears `m_pEventPost`, one step each, since nothing keeps two threads from calling it on the same
wrapper: a sender that finds the queue stopped calls it inside `PostEvent`, under the mutex of the
queue, which `ProcessEvents` and `DestoryPendingEvents` do not take.

Every call of `SendEvent` is a number, with the wrapper and the wrapped event of the call. All
other events are alike: handling them touches no wrapper.
-/

namespace VosStack.Synchronous

open EventQueue (CFSEventQueueBase maxGetOnce)

/-! ### Wrappers -/

/-- A wrapper and its wrapped event. -/
structure Obj where
  /-- the wrapper was constructed -/
  created : Bool
  /-- `m_bHasDestoryed` -/
  hasDestoryed : Bool
  /-- `m_pEventPost` is not null -/
  eventPost : Bool
  /-- `m_SendEvent` was signalled -/
  signalled : Bool
  /-- ghost: how often the wrapped event was fired -/
  fired : ℕ
  /-- ghost: how often `OnDestorySelf` of the wrapped event was called -/
  destroyed : ℕ
  /-- ghost: how often the wrapper was deleted -/
  deleted : ℕ
  /-- ghost: the wrapper was used after it was deleted -/
  touched : Bool
  deriving DecidableEq, Repr

/-- Before the call. -/
def Obj.none : Obj := ⟨false, false, false, false, 0, 0, 0, false⟩

/-- A use of the wrapper. -/
def Obj.touch (o : Obj) : Obj := { o with touched := o.touched || decide (0 < o.deleted) }

/-- `CFSEventSynchronous::CFSEventSynchronous`. -/
def Obj.create (o : Obj) : Obj :=
  { o with created := true, hasDestoryed := false, eventPost := true, signalled := false }

/-- `CFSEventSynchronous::OnEventFire`. -/
def Obj.onEventFire (o : Obj) : Obj :=
  let o := o.touch
  if o.hasDestoryed then o
  else { o with fired := o.fired + if o.eventPost then 1 else 0, signalled := true }

/-- `CFSEventSynchronous::~CFSEventSynchronous`. -/
def Obj.delete (o : Obj) : Obj :=
  { o with
    destroyed := o.destroyed + if o.eventPost then 1 else 0
    signalled := o.signalled || !o.hasDestoryed
    deleted := o.deleted + 1 }

/-- Where a call of `OnDestorySelf` is. -/
inductive Ending
  /-- it has read `m_bHasDestoryed` -/
  | read (flag : Bool)
  /-- it has set `m_bHasDestoryed` -/
  | marked
  /-- it has destroyed the wrapped event -/
  | destroyed
  deriving DecidableEq, Repr

/-- `CFSEventSynchronous::OnDestorySelf`: the next step, and where the call is then; none when it
returns. -/
def Obj.onDestorySelf (o : Obj) : Ending → Obj × Option Ending
  | .read true => (o.touch.delete, .none)
  | .read false => ({ o.touch with hasDestoryed := true }, some .marked)
  | .marked =>
    if o.eventPost then ({ o.touch with destroyed := o.destroyed + 1 }, some .destroyed)
    else (o.touch, .none)
  | .destroyed => ({ o.touch with eventPost := false }, .none)

/-- `CFSEventSynchronous::OnEventFire`: the result that it leaves in `m_Result`, when the wrapped
event gives `rv`. -/
def Obj.result (o : Obj) (rv : CAWResult) (old : Option CAWResult) : Option CAWResult :=
  if o.hasDestoryed then old else if o.eventPost then some rv else some .nullPointer

/-! ### The system -/

/-- An event in the queue. -/
inductive Event
  /-- the wrapper of the call `k` -/
  | wrapper (k : ℕ)
  | other
  deriving DecidableEq, Repr

/-- Where a call of `SendEvent` is. -/
inductive Phase
  | idle
  /-- the queue was not stopped, and the wrapper is made -/
  | checked
  /-- the wrapper is posted -/
  | waiting
  /-- the wait is over -/
  | woken
  /-- `PostEvent` has found the queue stopped and calls `OnDestorySelf` -/
  | discard
  /-- in this `OnDestorySelf` -/
  | destroy (e : Ending)
  | returned
  deriving DecidableEq, Repr

/-- The place of a sender after a step of `OnDestorySelf`. -/
def Phase.afterDestroy : Option Ending → Phase
  | none => .returned
  | some e => .destroy e

structure Call where
  phase : Phase
  obj : Obj
  /-- `m_Result`; none for `CAW_ERROR_NOT_AVAILABLE` -/
  result : Option CAWResult
  deriving DecidableEq, Repr

/-- Where the thread of the queue is. `rest` are the events popped and not yet handled. -/
inductive Pc
  | idle
  /-- in `ProcessEvents`, between two events -/
  | events (rest : List Event)
  /-- `OnEventFire` of the wrapper of `k` has returned -/
  | fired (k : ℕ) (rest : List Event)
  /-- in its `OnDestorySelf` -/
  | destroy (k : ℕ) (e : Ending) (rest : List Event)
  /-- in the loop of `DestoryPendingEvents` -/
  | close
  | closeDestroy (k : ℕ) (e : Ending)
  /-- after the loop -/
  | clear
  deriving DecidableEq, Repr

/-- The place in `ProcessEvents` after a step of `OnDestorySelf`. -/
def Pc.afterDestroy (k : ℕ) (rest : List Event) : Option Ending → Pc
  | none => .events rest
  | some e => .destroy k e rest

/-- The place in `DestoryPendingEvents` after a step of `OnDestorySelf`. -/
def Pc.afterClose (k : ℕ) : Option Ending → Pc
  | none => .close
  | some e => .closeDestroy k e

structure World where
  calls : ℕ → Call
  /-- `m_Events` is without the events that `DestoryPendingEvents` is done with -/
  queue : CFSEventQueueBase Event
  pc : Pc
  /-- the event loop has not ended -/
  running : Bool

def init : World := ⟨fun _ => ⟨.idle, .none, none⟩, ⟨[], 0, false⟩, .idle, true⟩

namespace World

/-- Change the call `k`. -/
def modify (w : World) (k : ℕ) (f : Call → Call) : World :=
  { w with calls := Function.update w.calls k (f (w.calls k)) }

/-! ### The senders -/

/-- `SendEvent` finds the queue stopped and destroys the event. -/
def refuse (w : World) (k : ℕ) : World :=
  w.modify k fun c =>
    { c with phase := .returned, obj := { c.obj with destroyed := c.obj.destroyed + 1 } }

/-- `SendEvent` up to the construction of the wrapper. -/
def send (w : World) (k : ℕ) : Option World :=
  if (w.calls k).phase = .idle then
    if w.queue.isStopped then some (w.refuse k)
    else some (w.modify k fun c => { c with phase := .checked, obj := c.obj.create })
  else none

/-- `SendEvent` from the thread of the queue, whose event gives `rv`. -/
def sendSame (w : World) (k : ℕ) (rv : CAWResult) : Option World :=
  if (w.calls k).phase = .idle then
    if w.queue.isStopped then some (w.refuse k)
    else
      some (w.modify k fun c =>
        ⟨.returned,
          { c.obj with fired := c.obj.fired + 1, destroyed := c.obj.destroyed + 1 }, some rv⟩)
  else none

/-- `PostEvent` of the wrapper, up to its `OnDestorySelf` when the queue is stopped. -/
def post (w : World) (k : ℕ) : Option World :=
  if (w.calls k).phase = .checked then
    let (queue, rv) := w.queue.postEvent (.wrapper k)
    if rv.failed then some (w.modify k fun c => { c with phase := .discard })
    else some { w.modify k fun c => { c with phase := .waiting } with queue }
  else none

/-- `m_SendEvent.Wait()` returns. -/
def wake (w : World) (k : ℕ) : Option World :=
  if (w.calls k).phase = .waiting ∧ (w.calls k).obj.signalled then
    some (w.modify k fun c => { c with phase := .woken, obj := c.obj.touch })
  else none

/-- `m_SendEvent.Wait()` fails. -/
def waitFail (w : World) (k : ℕ) : Option World :=
  if (w.calls k).phase = .waiting then
    some (w.modify k fun c => { c with phase := .returned, obj := c.obj.touch })
  else none

/-- `PostEvent` of the wrapper after the wait. -/
def repost (w : World) (k : ℕ) : Option World :=
  if (w.calls k).phase = .woken then
    let (queue, rv) := w.queue.postEvent (.wrapper k)
    if rv.failed then
      some (w.modify k fun c => { c with phase := .discard, obj := c.obj.touch })
    else
      some { w.modify k fun c => { c with phase := .returned, obj := c.obj.touch } with queue }
  else none

/-- `OnDestorySelf` in the thread of the sender reads `m_bHasDestoryed`. -/
def discardRead (w : World) (k : ℕ) : Option World :=
  if (w.calls k).phase = .discard then
    some (w.modify k fun c =>
      { c with phase := .destroy (.read c.obj.hasDestoryed), obj := c.obj.touch })
  else none

def discardAct (w : World) (k : ℕ) : Option World :=
  match (w.calls k).phase with
  | .destroy e =>
    some (w.modify k fun c =>
      { c with
        phase := .afterDestroy (c.obj.onDestorySelf e).2
        obj := (c.obj.onDestorySelf e).1 })
  | _ => none

/-- `PostEvent` of another event. -/
def postOther (w : World) : World := { w with queue := (w.queue.postEvent .other).1 }

/-! ### The thread of the queue -/

/-- `PopPendingEvents`. -/
def pop (w : World) : Option World :=
  if w.pc = .idle ∧ w.running then
    match w.queue.popPendingEvents maxGetOnce with
    | none => none
    | some (queue, events, _) => some { w with queue, pc := .events events }
  else none

/-- `OnEventFire` of the next event, a wrapper whose wrapped event gives `rv`. -/
def fire (w : World) (rv : CAWResult) : Option World :=
  match w.pc with
  | .events (.wrapper k :: rest) =>
    some { w.modify k fun c =>
        { c with obj := c.obj.onEventFire, result := c.obj.result rv c.result } with
      pc := .fired k rest }
  | _ => none

/-- `ProcessOneEvent` of another event. -/
def handleOther (w : World) : Option World :=
  match w.pc with
  | .events (.other :: rest) => some { w with pc := .events rest }
  | _ => none

def destroyRead (w : World) : Option World :=
  match w.pc with
  | .fired k rest =>
    some { w.modify k fun c => { c with obj := c.obj.touch } with
      pc := .destroy k (.read (w.calls k).obj.hasDestoryed) rest }
  | _ => none

def destroyAct (w : World) : Option World :=
  match w.pc with
  | .destroy k e rest =>
    some { w.modify k fun c => { c with obj := (c.obj.onDestorySelf e).1 } with
      pc := .afterDestroy k rest ((w.calls k).obj.onDestorySelf e).2 }
  | _ => none

/-- `ProcessEvents` returns. -/
def endEvents (w : World) : Option World :=
  if w.pc = .events [] then some { w with pc := .idle } else none

/-- The event loop has ended; `Close` calls `DestoryPendingEvents`. -/
def closeBegin (w : World) : Option World :=
  if w.pc = .idle then some { w with pc := .close, running := false } else none

/-- The loop of `DestoryPendingEvents` comes to the next event. -/
def closeRead (w : World) : Option World :=
  match w.pc, w.queue.events with
  | .close, .wrapper k :: events =>
    some { w.modify k fun c => { c with obj := c.obj.touch } with
      queue := { w.queue with events }
      pc := .closeDestroy k (.read (w.calls k).obj.hasDestoryed) }
  | .close, .other :: events => some { w with queue := { w.queue with events } }
  | _, _ => none

def closeAct (w : World) : Option World :=
  match w.pc with
  | .closeDestroy k e =>
    some { w.modify k fun c => { c with obj := (c.obj.onDestorySelf e).1 } with
      pc := .afterClose k ((w.calls k).obj.onDestorySelf e).2 }
  | _ => none

def closeEnd (w : World) : Option World :=
  if w.pc = .close ∧ w.queue.events = [] then some { w with pc := .clear } else none

/-- `m_Events.clear()`. -/
def closeClear (w : World) : Option World :=
  if w.pc = .clear then some { w with queue := w.queue.destoryPendingEvents, pc := .idle } else none

end World

inductive Action
  | send (k : ℕ)
  | sendSame (k : ℕ) (rv : CAWResult)
  | post (k : ℕ)
  | wake (k : ℕ)
  | waitFail (k : ℕ)
  | repost (k : ℕ)
  | discardRead (k : ℕ)
  | discardAct (k : ℕ)
  | postOther
  | stop
  | pop
  | fire (rv : CAWResult)
  | handleOther
  | destroyRead
  | destroyAct
  | endEvents
  | closeBegin
  | closeRead
  | closeAct
  | closeEnd
  | closeClear
  deriving DecidableEq, Repr

def step (w : World) : Action → Option World
  | .send k => w.send k
  | .sendSame k rv => w.sendSame k rv
  | .post k => w.post k
  | .wake k => w.wake k
  | .waitFail k => w.waitFail k
  | .repost k => w.repost k
  | .discardRead k => w.discardRead k
  | .discardAct k => w.discardAct k
  | .postOther => some w.postOther
  | .stop => some { w with queue := w.queue.stop }
  | .pop => w.pop
  | .fire rv => w.fire rv
  | .handleOther => w.handleOther
  | .destroyRead => w.destroyRead
  | .destroyAct => w.destroyAct
  | .endEvents => w.endEvents
  | .closeBegin => w.closeBegin
  | .closeRead => w.closeRead
  | .closeAct => w.closeAct
  | .closeEnd => w.closeEnd
  | .closeClear => w.closeClear

end VosStack.Synchronous
