import Mathlib.Data.Int.Notation
import Mathlib.Data.Nat.Notation
import Mathlib.Logic.Function.Basic
import VosStack.Basic
import VosStack.Transition.Run

/-!
# Handlers and the event loop

The reactor keeps, for each descriptor, the handler bound to it and a mask of events, and registers
the descriptor with epoll. `RunEventLoop` waits for a batch of ready descriptors and hands them one
by one to `ProcessHandleEvent`, which looks the handler up and calls its `OnInput` and `OnOutput`;
a close event, or a callback that returns non-zero, ends the binding with `OnClose`.

The callbacks are the users' code. They may register and remove handlers, and open and close
descriptors, so `ProcessHandleEvent` is cut where it calls one, and a state says in which callback
the thread is. The same calls are made outside the loop over a batch, by timers and posted events.

One handler is the reactor's own: the notify pipe. Any thread may write a record with a descriptor
and a mask to it, with `NotifyHandler`, and its `OnInput` reads one and calls `ProcessHandleEvent`
from there. A record for the pipe itself is dropped, so that calls are nested only once; one with
the descriptor `-1` is for the event queue, whose events run in `OnInput` of the pipe.

Bindings are numbered. A binding begins when a descriptor without a handler gets one, or another
one; a handler that is registered again with another mask keeps its binding. Which binding an
event was collected for, or a record was written for, and what the callbacks were called with, is
kept in ghost fields.

The masks belong to the base library. Of their values only this is used: `SHOULD_CALL` is not zero,
and no bit of it is in `ALL_EVENTS_MASK`. In the kernel, `vos_sock_fcntl` fails on a descriptor that
is not open, `SO_EPOLL_CTL_ADD` on one that is registered already, and closing a descriptor
removes it from epoll.
-/

namespace VosStack.Handlers

/-! ### Masks -/

abbrev MASK := BitVec 32

/-- `CAW_BIT_ENABLED`. -/
def bitEnabled (mask bit : MASK) : Bool := mask &&& bit != 0#32

/-- The masks of `IPSEventHandler`. -/
structure Masks where
  accept : MASK
  connect : MASK
  read : MASK
  write : MASK
  close : MASK
  shouldCall : MASK
  allEvents : MASK
  allEvents_shouldCall : allEvents &&& shouldCall = 0#32
  shouldCall_ne : shouldCall ≠ 0#32

/-- One bit for each. -/
def oneBitMasks : Masks :=
  ⟨0x1, 0x2, 0x4, 0x8, 0x10, 0x20, 0xf, rfl, by decide⟩

/-- The events of `struct vos_epoll_event`. -/
structure Interest where
  /-- `SO_EPOLLIN` -/
  input : Bool
  /-- `SO_EPOLLOUT` -/
  output : Bool
  deriving DecidableEq, Repr

/-- The events that `OnHandleRegister` asks for. -/
def Masks.interest (M : Masks) (mask : MASK) : Interest :=
  ⟨bitEnabled mask M.read || bitEnabled mask M.accept,
    bitEnabled mask M.write || bitEnabled mask M.connect⟩

/-! ### The state -/

structure CElement where
  /-- `m_pEh` -/
  eh : ℕ
  mask : MASK
  /-- ghost: the number of the binding -/
  binding : ℕ
  deriving DecidableEq, Repr

/-- An entry of `m_pEpollEvents`. -/
structure Ready where
  fd : ℤ
  events : Interest
  /-- ghost: the binding of the descriptor when the event was collected -/
  collected : Option ℕ
  deriving DecidableEq, Repr

/-- `CFSReactorNotifyPipe::CBuffer`. -/
structure CBuffer where
  fd : ℤ
  mask : MASK
  /-- ghost: the binding of the descriptor when the record was written -/
  noted : Option ℕ
  deriving DecidableEq, Repr

/-- The record that `CFSReactorNotifyPipe::Notify` writes for a handler, given by its
`GetHandle()`. -/
def notifyRecord (aEh : Option ℤ) (aMask : MASK) (noted : Option ℕ) : CBuffer :=
  ⟨aEh.getD (-1), aMask, noted⟩

/-- The call of `ProcessHandleEvent` that is in `OnInput` of the notify pipe, while a record makes
another one. -/
structure Caller where
  fd : ℤ
  eleFind : CElement
  maskActual : MASK
  collected : Option ℕ
  deriving DecidableEq, Repr

/-- Where the thread is. -/
inductive Pc
  /-- outside the loop over a batch -/
  | idle
  /-- between two events of a batch, or at the end of a call that a record has made -/
  | loop
  /-- in `OnInput` of the handler that was found -/
  | input (fd : ℤ) (eleFind : CElement) (maskActual : MASK) (collected : Option ℕ)
  /-- in `OnOutput` -/
  | output (fd : ℤ) (eleFind : CElement)
  /-- in `OnClose` -/
  | close
  deriving DecidableEq, Repr

/-- Ghost: a call of `OnInput` or `OnOutput`. -/
structure Call where
  fd : ℤ
  eh : ℕ
  /-- the binding that `ProcessHandleEvent` found -/
  binding : ℕ
  /-- the binding of the descriptor at the moment of the call -/
  bound : Option ℕ
  /-- the binding for which the event was collected -/
  collected : Option ℕ
  deriving DecidableEq, Repr

/-- Ghost: why the reactor ends a binding. -/
inductive Reason
  | closeEvent (collected : Option ℕ)
  /-- a callback of the handler `eh` has returned non-zero -/
  | callback (eh : ℕ)
  /-- `aDropConnect` -/
  | dropConnect
  deriving DecidableEq, Repr

/-- Ghost: what happened, in order. -/
inductive Event
  | bound (binding : ℕ) (fd : ℤ) (eh : ℕ)
  /-- another handler is bound to the descriptor -/
  | replaced (binding : ℕ)
  /-- unbound by `RemoveHandler` -/
  | removed (binding : ℕ)
  /-- unbound by the reactor -/
  | ended (binding : ℕ) (reason : Reason)
  | onInput (c : Call)
  | onOutput (c : Call)
  /-- `OnClose`, with the binding of the descriptor and its registration at that moment -/
  | onClose (binding : ℕ) (fd : ℤ) (eh : ℕ) (bound : Option ℕ) (registered : Option Interest)
  deriving DecidableEq, Repr

structure World where
  /-- `m_EhRepository`; none for a cleared element -/
  repository : ℤ → Option CElement
  /-- the descriptors registered with `m_nEpollFd` -/
  epoll : ℤ → Option Interest
  isOpen : ℤ → Bool
  /-- the events of the batch that are still to be handled -/
  batch : List Ready
  pc : Pc
  /-- `m_PipeNotify.GetReadHandle()`, while the pipe is open -/
  readHandle : Option ℤ
  /-- the records in the pipe -/
  pipe : List CBuffer
  caller : Option Caller
  /-- ghost: the number of the next binding -/
  next : ℕ
  /-- ghost -/
  log : List Event

def init : World :=
  ⟨fun _ => none, fun _ => none, fun _ => false, [], .idle, none, [], none, 0, []⟩

/-! ### The functions of the reactor -/

namespace World

/-- The binding of a descriptor. -/
def bindingOf (w : World) (fd : ℤ) : Option ℕ := (w.repository fd).map CElement.binding

/-- `CFSEventHandlerRepository::Bind`. -/
def bind (w : World) (aFd : ℤ) (eh : ℕ) (mask : MASK) : World × CAWResult :=
  match w.repository aFd with
  | none =>
    ({ w with
      repository := Function.update w.repository aFd (some ⟨eh, mask, w.next⟩)
      next := w.next + 1
      log := w.log ++ [.bound w.next aFd eh] }, .ok)
  | some old =>
    if old.eh = eh then
      ({ w with
        repository := Function.update w.repository aFd (some ⟨eh, mask, old.binding⟩) }, .found)
    else
      ({ w with
        repository := Function.update w.repository aFd (some ⟨eh, mask, w.next⟩)
        next := w.next + 1
        log := w.log ++ [.replaced old.binding, .bound w.next aFd eh] }, .found)

/-- `CFSEventHandlerRepository::UnBind`. -/
def unBind (w : World) (aFd : ℤ) : World :=
  { w with repository := Function.update w.repository aFd none }

/-- `CFSReactorEpoll::OnHandleRegister`; none for `CAW_ERROR_FAILURE`. -/
def onHandleRegister (M : Masks) (w : World) (aFd : ℤ) (aMask : MASK) : Option World :=
  if w.isOpen aFd ∧ w.epoll aFd = none then
    some { w with epoll := Function.update w.epoll aFd (some (M.interest aMask)) }
  else none

/-- `CFSReactorEpoll::OnHandleRemoved`. -/
def onHandleRemoved (w : World) (aFd : ℤ) : World :=
  { w with epoll := Function.update w.epoll aFd none }

/-- `CFSReactorBase::RegisterHandler` of the handler `aEh`, whose `GetHandle()` is `fdNew`. -/
def registerHandler (M : Masks) (w : World) (aEh : ℕ) (fdNew : ℤ) (aMask : MASK) :
    World × CAWResult :=
  let maskNew := aMask &&& M.allEvents
  if maskNew = 0#32 then (w, .invalidArg)
  else
    match w.repository fdNew with
    | none =>
      match w.onHandleRegister M fdNew maskNew with
      | none => (w, .failure)
      | some w' => w'.bind fdNew aEh maskNew
    | some eleFind =>
      if maskNew = eleFind.mask ∧ aEh = eleFind.eh then (w, .ok)
      -- epoll is not told
      else w.bind fdNew aEh maskNew

/-- `CFSReactorBase::RemoveHandleWithoutFinding_i`; `reason` is for the log, with `SHOULD_CALL`. -/
def removeHandleWithoutFinding (M : Masks) (w : World) (aFd : ℤ) (aHe : CElement) (aMask : MASK)
    (reason : Reason) : World × CAWResult :=
  let maskNew := aMask &&& M.allEvents
  let maskSelect := (aHe.mask &&& maskNew) ^^^ aHe.mask
  if maskSelect = aHe.mask then (w, .ok)
  else if maskSelect = 0#32 then
    let w' := (w.unBind aFd).onHandleRemoved aFd
    if bitEnabled aMask M.shouldCall then
      ({ w' with
        pc := .close
        log := w.log ++ [.ended aHe.binding reason,
          .onClose aHe.binding aFd aHe.eh (w'.bindingOf aFd) (w'.epoll aFd)] }, .ok)
    else ({ w' with log := w.log ++ [.removed aHe.binding] }, .ok)
  else w.bind aFd aHe.eh maskSelect

/-- `CFSReactorBase::RemoveHandler` of the handler `aEh`, whose `GetHandle()` is `fdNew`. It is not
compared with the handler that is bound. -/
def removeHandler (M : Masks) (w : World) (aEh : ℕ) (fdNew : ℤ) (aMask : MASK) :
    World × CAWResult :=
  let maskNew := aMask &&& M.allEvents
  if maskNew = 0#32 then (w, .invalidArg)
  else
    match w.repository fdNew with
    | none => (w, .ok)
    | some eleFind => w.removeHandleWithoutFinding M fdNew eleFind maskNew (.callback aEh)

def callInput (w : World) (aFd : ℤ) (eleFind : CElement) (maskActual : MASK)
    (collected : Option ℕ) : World :=
  { w with
    pc := .input aFd eleFind maskActual collected
    log := w.log ++ [.onInput ⟨aFd, eleFind.eh, eleFind.binding, w.bindingOf aFd, collected⟩] }

def callOutput (w : World) (aFd : ℤ) (eleFind : CElement) (collected : Option ℕ) : World :=
  { w with
    pc := .output aFd eleFind
    log := w.log ++ [.onOutput ⟨aFd, eleFind.eh, eleFind.binding, w.bindingOf aFd, collected⟩] }

/-- `ProcessHandleEvent` ends the binding. -/
def removeAll (M : Masks) (w : World) (aFd : ℤ) (ele : CElement) (reason : Reason) : World :=
  (w.removeHandleWithoutFinding M aFd ele (M.allEvents ||| M.shouldCall) reason).1

/-- `ProcessHandleEvent` when `nOnCall` is not zero. -/
def onCallFailed (M : Masks) (w : World) (aFd : ℤ) (eleFind : CElement) (reason : Reason) : World :=
  let w' := { w with pc := .loop }
  match w.repository aFd with
  | none => w'
  | some eleFindAgain =>
    if eleFind.eh = eleFindAgain.eh then w'.removeAll M aFd eleFindAgain reason else w'

/-- `ProcessHandleEvent` after `OnInput`, or without it, when `nOnCall` is zero. -/
def output (M : Masks) (w : World) (aFd : ℤ) (eleFind : CElement) (maskActual : MASK)
    (collected : Option ℕ) : World :=
  if bitEnabled maskActual M.connect || bitEnabled maskActual M.write then
    w.callOutput aFd eleFind collected
  else { w with pc := .loop }

/-- `CFSReactorBase::ProcessHandleEvent`, up to the first callback. -/
def processHandleEvent (M : Masks) (w : World) (aFd : ℤ) (aMask : MASK)
    (aIsNotify aDropConnect : Bool) (collected : Option ℕ) : World :=
  let w' := { w with pc := .loop }
  match w.repository aFd with
  | none => w'
  | some eleFind =>
    if bitEnabled aMask M.close then w'.removeAll M aFd eleFind (.closeEvent collected)
    else
      let maskActual := eleFind.mask &&& aMask
      if maskActual = 0#32 ∧ aIsNotify = false then w'
      else if aDropConnect && bitEnabled maskActual M.connect then
        w.onCallFailed M aFd eleFind .dropConnect
      else if bitEnabled maskActual M.accept || bitEnabled maskActual M.read then
        w.callInput aFd eleFind maskActual collected
      else w.output M aFd eleFind maskActual collected

/-- `CFSReactorNotifyPipe::OnInput` with the record that was read, up to the first callback. -/
def notifyInput (M : Masks) (w : World) (readHandle : ℤ) (bfNew : CBuffer) : World :=
  if bfNew.fd = readHandle ∨ bfNew.fd = -1 then { w with pc := .loop }
  else w.processHandleEvent M bfNew.fd bfNew.mask true false bfNew.noted

end World

/-- `RunEventLoop`: the mask of an event; `connected` is what `IsConnected` says now. -/
def Masks.maskSig (M : Masks) (e : Interest) (connected : Bool) : MASK :=
  (if e.input then M.read ||| M.accept ||| M.connect else 0#32) |||
    if e.output then M.write ||| M.connect ||| (if connected then 0#32 else M.close) else 0#32

/-! ### The system -/

inductive Action
  | registerHandler (aEh : ℕ) (fdNew : ℤ) (aMask : MASK)
  | removeHandler (aEh : ℕ) (fdNew : ℤ) (aMask : MASK)
  | openFd (fd : ℤ)
  | closeFd (fd : ℤ)
  /-- `vos_epoll_wait` returns a batch -/
  | wait (events : List (ℤ × Interest))
  /-- the next event of the batch -/
  | dispatch (connected : Bool)
  /-- the notify pipe is opened; it is registered like any other handler -/
  | openPipe (readHandle : ℤ)
  /-- `NotifyHandler`, by any thread -/
  | notifyHandler (fd : ℤ) (aMask : MASK)
  /-- `OnInput` of the notify pipe reads a record -/
  | notifyInput
  /-- the call that a record has made returns -/
  | notifyReturn
  /-- `OnInput` returns -/
  | inputReturn (nOnCall : ℤ)
  /-- `OnOutput` returns -/
  | outputReturn (nOnCall : ℤ)
  /-- `OnClose` returns -/
  | closeReturn
  | endBatch
  deriving DecidableEq, Repr

def step (M : Masks) (w : World) : Action → Option World
  | .registerHandler aEh fdNew aMask =>
    if w.pc = .loop then none else some (w.registerHandler M aEh fdNew aMask).1
  | .removeHandler aEh fdNew aMask =>
    if w.pc = .loop then none else some (w.removeHandler M aEh fdNew aMask).1
  | .openFd fd =>
    if w.pc = .loop ∨ fd < 0 ∨ w.isOpen fd then none
    else some { w with isOpen := Function.update w.isOpen fd true }
  | .closeFd fd =>
    if w.pc = .loop ∨ w.isOpen fd = false then none
    else
      some { w.onHandleRemoved fd with isOpen := Function.update w.isOpen fd false }
  | .wait events =>
    if w.pc = .idle ∧ events.all fun e => (w.epoll e.1).isSome then
      some { w with batch := events.map fun e => ⟨e.1, e.2, w.bindingOf e.1⟩, pc := .loop }
    else none
  | .dispatch connected =>
    match w.pc, w.batch, w.caller with
    | .loop, e :: batch, none =>
      some ({ w with batch }.processHandleEvent M e.fd (M.maskSig e.events connected) false false
        e.collected)
    | _, _, _ => none
  | .openPipe readHandle =>
    if w.pc = .loop ∨ readHandle < 0 ∨ w.isOpen readHandle then none
    else
      some { w with
        isOpen := Function.update w.isOpen readHandle true
        readHandle := some readHandle
        pipe := [] }
  | .notifyHandler fd aMask =>
    if w.readHandle = none then none
    else some { w with pipe := w.pipe ++ [notifyRecord (some fd) aMask (w.bindingOf fd)] }
  | .notifyInput =>
    match w.pc, w.pipe, w.caller with
    | .input fd eleFind maskActual collected, bfNew :: pipe, none =>
      if w.readHandle = some fd then
        -- the events of the queue run in this `OnInput`
        if bfNew.fd = -1 then some { w with pipe }
        else
          some ({ w with
            pipe
            caller := some ⟨fd, eleFind, maskActual, collected⟩ }.notifyInput M fd bfNew)
      else none
    | _, _, _ => none
  | .notifyReturn =>
    match w.pc, w.caller with
    -- `OnInput` of the pipe returns 0
    | .loop, some c =>
      some ({ w with caller := none }.output M c.fd c.eleFind c.maskActual c.collected)
    | _, _ => none
  | .inputReturn nOnCall =>
    match w.pc with
    | .input fd eleFind maskActual collected =>
      if nOnCall = 0 then some (w.output M fd eleFind maskActual collected)
      else some (w.onCallFailed M fd eleFind (.callback eleFind.eh))
    | _ => none
  | .outputReturn nOnCall =>
    match w.pc with
    | .output fd eleFind =>
      if nOnCall = 0 then some { w with pc := .loop }
      else some (w.onCallFailed M fd eleFind (.callback eleFind.eh))
    | _ => none
  | .closeReturn =>
    match w.pc with
    | .close => some { w with pc := .loop }
    | _ => none
  | .endBatch =>
    match w.pc, w.batch, w.caller with
    | .loop, [], none => some { w with pc := .idle }
    | _, _, _ => none

end VosStack.Handlers
