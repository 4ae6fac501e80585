import VosStack.Reactor.Queue
import VosStack.Transition.Run

/-!
# What is done to events

`PostEvent` takes an event, or destroys it when the queue is stopped. `ProcessEvents` fires each
event of a popped list and then destroys it. `DestoryPendingEvents` destroys what is left.

Posts of different threads, and the pops, hold the mutex of `CFSEventQueueUsingMutex`, so that they
are steps of one run. The callbacks of an event are the user's code, which may post; `ProcessEvents`
is cut at `OnEventFire`. Events are numbered in the order of the `PostEvent` calls, also those
that are rejected. `PostEvent(NULL)` changes nothing and is left out.
-/

namespace VosStack.EventQueue

/-- Ghost: why an event is destroyed. -/
inductive Why
  | processed
  | rejected
  | discarded
  deriving DecidableEq, Repr

/-- Ghost: the calls made on the events, in order. -/
inductive Entry
  /-- `OnEventFire` -/
  | fire (n : ℕ)
  /-- `OnDestorySelf` -/
  | destory (n : ℕ) (why : Why)
  deriving DecidableEq, Repr

structure World where
  queue : CFSEventQueueBase ℕ
  /-- the events that are popped and not yet processed, in the order of the pops -/
  popped : List ℕ
  /-- the event that `ProcessOneEvent` has fired and not yet destroyed -/
  firing : Option ℕ
  /-- `DestoryPendingEvents` was called -/
  destoryed : Bool
  /-- the number of `PostEvent` calls -/
  next : ℕ
  /-- ghost -/
  log : List Entry
  deriving DecidableEq, Repr

def init : World := ⟨⟨[], 0, false⟩, [], none, false, 0, []⟩

inductive Action
  | postEvent
  | popPendingEvents (aMaxCount : BitVec 32)
  | popOnePendingEvent
  /-- `ProcessOneEvent` calls `OnEventFire` of the next popped event -/
  | fire
  /-- `ProcessOneEvent` calls `OnDestorySelf` -/
  | destorySelf
  | stop
  | destoryPendingEvents
  deriving DecidableEq, Repr

def step (w : World) : Action → Option World
  | .postEvent =>
    if w.destoryed then none
    else
      let (queue, rv) := w.queue.postEvent w.next
      some { w with
        queue
        next := w.next + 1
        log := if rv.succeeded then w.log else w.log ++ [.destory w.next .rejected] }
  | .popPendingEvents aMaxCount =>
    if w.destoryed then none
    else
      match w.queue.popPendingEvents aMaxCount with
      | none => some w
      | some (queue, aEvents, _) => some { w with queue, popped := w.popped ++ aEvents }
  | .popOnePendingEvent =>
    if w.destoryed then none
    else
      match w.queue.popOnePendingEvent with
      | none => some w
      | some (queue, aEvent, _) => some { w with queue, popped := w.popped ++ [aEvent] }
  | .fire =>
    match w.firing, w.popped with
    | none, n :: popped =>
      some { w with popped, firing := some n, log := w.log ++ [.fire n] }
    | _, _ => none
  | .destorySelf =>
    match w.firing with
    | some n => some { w with firing := none, log := w.log ++ [.destory n .processed] }
    | none => none
  | .stop => some { w with queue := w.queue.stop }
  | .destoryPendingEvents =>
    if w.destoryed then none
    else
      some { w with
        queue := w.queue.destoryPendingEvents
        destoryed := true
        log := w.log ++ w.queue.events.map (.destory · .discarded) }

end VosStack.EventQueue
