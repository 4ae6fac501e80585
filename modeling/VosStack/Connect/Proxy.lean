import VosStack.Basic
import VosStack.Transition.Run

/-!
# Connector and acceptor proxies

A `CFSConnectorThreadProxy` or `CFSAcceptorThreadProxy` lives on the user thread and drives
an actual connector or acceptor on the network thread. Calls go over as events of the
network thread's queue, results come back as `CFSEventOnConnectIndication` events of the
user thread's queue. Such an event names the proxy and not the call it answers; the model
adds to every event and object the number of the `AsycConnect` or `StartListen` that caused
it (`attempt`), which no test of the code reads. The sink given to the `n`-th call is the
number `n`.

The stop flag and `m_pSinkActual` are touched only by the user thread, and the actual
connector or acceptor only by the network thread, so a step is one call or one event: it
accesses the shared state (one of the two queues) once. Only `StartListen` is split, since
its `SendEvent` blocks until the network thread has fired the event.

Assertions are preconditions: `AsycConnect` and `StartListen` are called with the stop flag
set and no sink. The actual connector is a `CFSConnectorWrapper` with the CONNECT handler
and the timer it registers; an actual acceptor delivers any number of transports until it
is stopped.
-/

namespace VosStack.Connect

/-- The two instances of `CFSAcceptorConnectorSinkThreadProxyT`. -/
inductive Kind
  | connector
  | acceptor
  deriving DecidableEq, Repr

/-- `CFSEventOnConnectIndication`: a failure, or a new transport. -/
structure Indication where
  attempt : ℕ
  reason : CAWResult
  trpt : Option ℕ
  deriving DecidableEq, Repr

/-! ### The actual connector -/

/-- `CFSConnectorWrapper` with its `CFSConnectorTcpT`. -/
structure CFSConnectorWrapper where
  attempt : ℕ
  /-- `m_bClosed` -/
  closed : Bool
  /-- `m_pTransport` is set and its handler is registered with `CONNECT_MASK` -/
  registered : Bool
  /-- the argument of the scheduled timer -/
  timer : Option CAWResult
  deriving DecidableEq, Repr

namespace CFSConnectorWrapper

/-- `Close_i`: a second call does nothing. -/
def close_i (c : CFSConnectorWrapper) : CFSConnectorWrapper :=
  if c.closed then c
  else { c with closed := true, registered := false, timer := none }

@[simp] theorem close_i_closed (c : CFSConnectorWrapper) : c.close_i.closed = true := by
  unfold close_i
  split
  · assumption
  · rfl

end CFSConnectorWrapper

/-- `m_pConActual` or `m_pAcceptorActual`. -/
inductive Actual
  | connector (c : CFSConnectorWrapper)
  | acceptor (attempt : ℕ)
  deriving DecidableEq, Repr

/-- How an attempt to start the actual connector or acceptor goes. -/
inductive Start
  /-- the object cannot be created -/
  | createFailed
  /-- `Connect` or `StartListen` fails; a connector may have registered its handler -/
  | failed (registered : Bool)
  /-- the connect is in progress, or the listen has succeeded -/
  | started
  deriving DecidableEq, Repr

/-- What the reactor calls on an actual connector. -/
inductive ConnectorEvent
  /-- `OnOutput`; `rv` is the result of the transport's `OpenWithSink` -/
  | onOutput (rv : CAWResult)
  | onClose
  | onTimeout
  deriving DecidableEq, Repr

/-! ### The world -/

/-- The events of this proxy in the network thread's queue. -/
inductive NetEvent
  /-- `CFSEventAsycConnect`; `timeout` if a timeout was given -/
  | asycConnect (attempt : ℕ) (timeout : Bool)
  /-- `CFSEventCancelConnect` -/
  | cancelConnect
  /-- `CFSEventStartListen`, inside its `CFSEventSynchronous` -/
  | startListen (attempt : ℕ)
  /-- `CFSEventStopListen` -/
  | stopListen
  deriving DecidableEq, Repr

/-- Where the user thread is. -/
inductive UserPos
  | idle
  /-- in `StartListen`, waiting for the result of its `SendEvent` -/
  | listenWait
  /-- in `StartListen`, with the result -/
  | listenResult (rv : CAWResult)
  deriving DecidableEq, Repr

/-- What became of an indication that was fired. -/
inductive Outcome
  /-- passed to the `OnConnectIndication` of a sink -/
  | delivered (sink : ℕ)
  /-- its transport was disconnected -/
  | disconnected
  | ignored
  deriving DecidableEq, Repr

/-- What the user thread has done, in order. -/
inductive LogEntry
  /-- `CancelConnect` or `StopListen` ended the attempt -/
  | cancelled (attempt : ℕ)
  | fired (e : Indication) (outcome : Outcome)
  deriving DecidableEq, Repr

/-- One proxy: both threads, both queues and everything between. -/
structure World where
  kind : Kind
  /-- `CAWStopFlag` -/
  stopped : Bool
  /-- `m_pSinkActual` -/
  sinkActual : Option ℕ
  /-- the number of `AsycConnect` or `StartListen` calls so far -/
  attempts : ℕ
  actual : Option Actual
  netQueue : List NetEvent
  /-- `m_bIsStopped` of the network thread's queue -/
  netStopped : Bool
  userQueue : List Indication
  user : UserPos
  /-- the number of transports handed out so far -/
  trpts : ℕ
  log : List LogEntry
  deriving DecidableEq, Repr

namespace World

/-- A new proxy. -/
def init (kind : Kind) : World where
  kind := kind
  stopped := true
  sinkActual := none
  attempts := 0
  actual := none
  netQueue := []
  netStopped := false
  userQueue := []
  user := .idle
  trpts := 0
  log := []

/-! ### The user thread -/

/-- `PostEvent` on the network thread's queue; a stopped queue destroys the event. -/
def postNet (w : World) (e : NetEvent) : World :=
  if w.netStopped then w else { w with netQueue := w.netQueue ++ [e] }

/-- `AsycConnect`: the flag is cleared only if the event could be posted. -/
def asycConnect (w : World) (timeout : Bool) : Option World :=
  if w.kind = .connector ∧ w.user = .idle ∧ w.stopped = true ∧ w.sinkActual = none then
    let n := w.attempts + 1
    some { w.postNet (.asycConnect n timeout) with
      attempts := n
      sinkActual := some n
      stopped := w.netStopped }
  else none

/-- `CancelConnect`. -/
def cancelConnect (w : World) : Option World :=
  if w.kind = .connector ∧ w.user = .idle then
    if w.stopped then some w
    else
      some { w.postNet .cancelConnect with
        stopped := true
        sinkActual := none
        log := w.log ++ [.cancelled w.attempts] }
  else none

/-- `StartListen` up to the wait in `SendEvent`. -/
def startListen (w : World) : Option World :=
  if w.kind = .acceptor ∧ w.user = .idle ∧ w.stopped = true ∧ w.sinkActual = none then
    let n := w.attempts + 1
    if w.netStopped then some { w with attempts := n }
    else
      some { w with
        attempts := n
        sinkActual := some n
        netQueue := w.netQueue ++ [.startListen n]
        user := .listenWait }
  else none

/-- `StartListen` after `SendEvent` has returned. -/
def listenReturn (w : World) : Option World :=
  match w.user with
  | .listenResult rv =>
      if rv.failed then some { w with sinkActual := none, user := .idle }
      else some { w with stopped := false, user := .idle }
  | _ => none

/-- `StopListen`. -/
def stopListen (w : World) : Option World :=
  if w.kind = .acceptor ∧ w.user = .idle then
    if w.stopped then some w
    else
      some { w.postNet .stopListen with
        stopped := true
        sinkActual := none
        log := w.log ++ [.cancelled w.attempts] }
  else none

/-- `SetStopFlag`: nothing for an acceptor. -/
def setStopFlag (w : World) : World :=
  match w.kind with
  | .connector => { w with sinkActual := none, stopped := true }
  | .acceptor => w

/-- `CFSEventOnConnectIndication::OnEventFire`. -/
def fire (w : World) (e : Indication) : World :=
  if w.stopped then
    { w with
      log := w.log ++ [.fired e (if e.trpt.isSome then .disconnected else .ignored)] }
  else
    match w.sinkActual with
    | some n => { w.setStopFlag with log := w.log ++ [.fired e (.delivered n)] }
    | none => { w.setStopFlag with log := w.log ++ [.fired e .ignored] }

/-- The user thread takes the next event of its queue. -/
def fireUser (w : World) : Option World :=
  if w.user = .idle then
    match w.userQueue with
    | [] => none
    | e :: es => some ({ w with userQueue := es }.fire e)
  else none

/-! ### The network thread -/

/-- The connector that a fired `CFSEventAsycConnect` leaves in `m_pConActual`. A connect
that fails at once schedules a timer to report it. -/
def startConnector (attempt : ℕ) (timeout : Bool) : Start → Option Actual
  | .createFailed => none
  | .failed registered =>
      some (.connector ⟨attempt, false, registered, some .networkConnectError⟩)
  | .started =>
      some (.connector ⟨attempt, false, true,
        if timeout then some .networkConnectTimeout else none⟩)

/-- The network thread fires the next event of its queue. The wrapper that a new connector
replaces is destroyed. -/
def fireNet (w : World) (start : Start) : Option World :=
  match w.netQueue with
  | [] => none
  | .asycConnect n timeout :: es =>
      some { w with netQueue := es, actual := startConnector n timeout start }
  | .cancelConnect :: es => some { w with netQueue := es, actual := none }
  | .startListen n :: es =>
      match start with
      | .started =>
          some { w with
            netQueue := es, actual := some (.acceptor n), user := .listenResult .ok }
      | _ =>
          some { w with netQueue := es, actual := none, user := .listenResult .failure }
  | .stopListen :: es => some { w with netQueue := es, actual := none }

/-- `CFSAcceptorConnectorSinkThreadProxyT::OnConnectIndication`: a transport that cannot be
opened is a failure for a connector and is dropped by an acceptor. -/
def onConnectIndication (w : World) (attempt : ℕ) (reason rvOpen : CAWResult) : World :=
  if reason.succeeded then
    if rvOpen.succeeded then
      { w with
        userQueue := w.userQueue ++ [⟨attempt, rvOpen, some w.trpts⟩]
        trpts := w.trpts + 1 }
    else if w.kind = .connector then
      { w with userQueue := w.userQueue ++ [⟨attempt, rvOpen, none⟩] }
    else w
  else { w with userQueue := w.userQueue ++ [⟨attempt, reason, none⟩] }

/-- The reactor calls the actual connector: its handler if it is registered, its timer if
it is scheduled. -/
def connectorEvent (w : World) (ev : ConnectorEvent) : Option World :=
  match w.actual with
  | some (.connector c) =>
      match ev with
      | .onOutput rv =>
          if c.registered then
            some ({ w with actual := some (.connector c.close_i) }.onConnectIndication
              c.attempt .ok rv)
          else none
      | .onClose =>
          if c.registered then
            let c' := { c with registered := false }
            some ({ w with actual := some (.connector c'.close_i) }.onConnectIndication
              c.attempt .networkSocketError .ok)
          else none
      | .onTimeout =>
          match c.timer with
          | some rv =>
              let c' := { c with timer := none }
              some ({ w with actual := some (.connector c'.close_i) }.onConnectIndication
                c.attempt rv .ok)
          | none => none
  | _ => none

/-- The actual acceptor accepts a connection; `rv` is the result of `OpenWithSink`. -/
def accept (w : World) (rv : CAWResult) : Option World :=
  match w.actual with
  | some (.acceptor n) => some (w.onConnectIndication n .ok rv)
  | _ => none

/-! ### The system -/

/-- The actions: calls and events of the user thread, events of the network thread. -/
inductive Action
  | asycConnect (timeout : Bool)
  | cancelConnect
  | startListen
  | listenReturn
  | stopListen
  | fireUser
  | fireNet (start : Start)
  | connectorEvent (ev : ConnectorEvent)
  | accept (rv : CAWResult)
  /-- the network thread's queue is stopped -/
  | stopQueue
  deriving DecidableEq, Repr

/-- One step of one of the two threads. -/
def step (w : World) : Action → Option World
  | .asycConnect timeout => w.asycConnect timeout
  | .cancelConnect => w.cancelConnect
  | .startListen => w.startListen
  | .listenReturn => w.listenReturn
  | .stopListen => w.stopListen
  | .fireUser => w.fireUser
  | .fireNet start => w.fireNet start
  | .connectorEvent ev => w.connectorEvent ev
  | .accept rv => w.accept rv
  | .stopQueue => some { w with netStopped := true }

end World

end VosStack.Connect
