import VosStack.Transport.Tcp
import VosStack.Transition.Run

/-!
# The transport proxy between the user thread and the network thread

`CFSTransportThreadProxy` hands a connection of the network thread to a user thread. The
user thread calls `SendData`, `OpenWithSink` and `Disconnect` and fires the events of its
own queue; the network thread fires the events of the reactor's queue and is called by the
reactor through the actual transport (`OnInput`, `OnOutput`, `OnClose`, `OnTimer`).

The model is a step function on a `World`: the actual transport, the proxy, the two FIFO
queues, and the position of each thread inside the call it is executing. A step is the
thread-local work up to and including one access to state that the other thread also
uses: the stop flag, the two buffer flags, a queue. So between the stop test of
`OnReceive` and its `PostEvent`, between the two flag tests of `SendData`, or between the
two flag writes of `Send_i`, the other thread may do anything.

`m_SendBuffer`, the socket and the actual transport belong to the network thread alone;
`m_bNeedOnSend` and `m_pSinkActual` to the user thread alone. The fields `wire`, `rcvd`
and `log` record what crossed the boundaries: the bytes written to and read from the
socket, and the calls that the user made and received.

A `CFSTransportParameter` only counts bytes and is left out, as are reference counts; a
user thread that drops its last reference is the action `release`, whose effect on the
proxy is `SetStopFlag`.
-/

namespace VosStack

/-- The state of a `CFSTransportThreadProxy`. -/
structure CFSTransportThreadProxy where
  /-- `m_Type` -/
  type : CType
  /-- `CAWStopFlag::IsFlagStopped()` -/
  stopped : Bool
  /-- `m_pSinkActual` is not `NULL` -/
  sinkActual : Bool
  /-- `m_bIsBufferFull` -/
  isBufferFull : Bool
  /-- `m_bNeedOnSend` -/
  needOnSend : Bool
  /-- `m_bPartialDataLastTime` -/
  partialDataLastTime : Bool
  /-- `m_SendBuffer`: the unsent bytes of each item, front first -/
  sendBuffer : List Bytes
  deriving DecidableEq, Repr

/-! ### `Send_i` -/

/-- Where `Send_i` leaves: the early `return rv` after a direct send, which writes no flag,
the end of the flush loop, or the `fail` label with the failing `rvSend`. -/
inductive SendExit
  | direct
  | flushed
  | fail (rvSend : CAWResult)
  deriving DecidableEq, Repr

/-- What `Send_i` has done when it reaches its flag writes. -/
structure SendState where
  tcp : CFSTransportTcp
  sendBuffer : List Bytes
  written : Bytes
  exit : SendExit
  deriving DecidableEq, Repr

/-- The `while` loop of `Send_i`: send the front item, pop it when the send succeeded,
leave on the first failure. -/
def flush : CFSTransportTcp → List SendOutcome → List Bytes → SendState
  | t, _, [] => ⟨t, [], [], .flushed⟩
  | t, script, d :: ds =>
      let (t', r) := t.sendData script d
      if r.rv.failed then
        ⟨t', r.rest :: ds, r.written, .fail r.rv⟩
      else
        let f := flush t' r.script ds
        { f with written := r.written ++ f.written }

namespace CFSTransportThreadProxy

/-- `CFSTransportThreadProxy::Send_i` up to its flag writes; `aData` is `none` when it is
called from `OnSend`. The argument `aIsDuplicated` only decides who owns the memory. -/
def send_i (p : CFSTransportThreadProxy) (t : CFSTransportTcp) (script : List SendOutcome)
    (aData : Option Bytes) : SendState :=
  match aData with
  | none => flush t script p.sendBuffer
  | some d =>
      if p.sendBuffer.isEmpty then
        let (t', r) := t.sendData script d
        if r.rv.succeeded || p.type == .udp then
          ⟨t', p.sendBuffer, r.written, .direct⟩
        else
          -- buffered behind an empty list, then `goto fail` without trying again
          ⟨t', p.sendBuffer ++ [r.rest], r.written, .fail r.rv⟩
      else
        flush t script (p.sendBuffer ++ [d])

/-- The first of the two flag writes that end `Send_i`. -/
def writeFlag₁ (p : CFSTransportThreadProxy) : SendExit → CFSTransportThreadProxy
  | .direct => p
  | .flushed => { p with isBufferFull := false }
  | .fail rvSend => { p with partialDataLastTime := rvSend == .partialData }

/-- The second flag write. -/
def writeFlag₂ (p : CFSTransportThreadProxy) : SendExit → CFSTransportThreadProxy
  | .direct => p
  | .flushed => { p with partialDataLastTime := false }
  | .fail _ => { p with isBufferFull := true }

end CFSTransportThreadProxy

/-! ### Queues, positions and the world -/

/-- The events of this proxy in the network thread's queue. -/
inductive NetEvent
  /-- `CFSEventSendData` -/
  | sendData (d : Bytes)
  /-- `CFSEventDisconnect` -/
  | disconnect
  deriving DecidableEq, Repr

/-- The events of this proxy in the user thread's queue. -/
inductive UserEvent
  /-- `CFSEventOnConnectIndication` -/
  | onConnectIndication
  /-- `CFSEventOnReceive` -/
  | onReceive (d : Bytes)
  /-- `CFSEventOnSend` -/
  | onSend
  /-- `CFSEventOnDisconnect` -/
  | onDisconnect
  deriving DecidableEq, Repr

/-- Where the user thread is. -/
inductive UserPos
  | idle
  /-- in `SendData`, about to test `m_bIsBufferFull` -/
  | sendFull (d : Bytes)
  /-- in `SendData`, about to test `m_bPartialDataLastTime` -/
  | sendPartial (d : Bytes)
  /-- in `SendData`, about to `PostEvent` -/
  | sendPost (d : Bytes)
  /-- in `Disconnect`, about to `PostEvent` -/
  | disconnectPost
  deriving DecidableEq, Repr

/-- Where the network thread is. -/
inductive NetPos
  | idle
  /-- in `Send_i`, about to write the first flag; `upcall` if it was called by `OnSend` -/
  | sendFlag₁ (exit : SendExit) (upcall : Bool)
  /-- in `Send_i`, about to write the second flag -/
  | sendFlag₂ (exit : SendExit) (upcall : Bool)
  /-- in `OnSend`, about to post a `CFSEventOnSend` -/
  | onSendPost
  /-- in the loop of `OnEpollInput`, about to receive -/
  | inputLoop
  /-- in `OnReceive`, about to post; `loop` if it was called from `OnEpollInput` -/
  | receivePost (d : Bytes) (loop : Bool)
  /-- in `OnDisconnect`, about to post -/
  | onDisconnectPost
  deriving DecidableEq, Repr

/-- What the user sees, in order: the upcalls made on the sink, and its own calls of
`SendData` and `Disconnect` at the moment they return. -/
inductive LogEntry
  | onReceive (d : Bytes)
  | onSend
  | onDisconnect
  /-- `SendData(d)` returned `rv`; `stopped` is what its stop test saw -/
  | sendData (d : Bytes) (rv : CAWResult) (stopped : Bool)
  | disconnect
  deriving DecidableEq, Repr

/-- One connection: both threads, both queues and everything between. -/
structure World where
  tcp : CFSTransportTcp
  /-- the descriptor is bound to `tcp` in the reactor's repository -/
  bound : Bool
  proxy : CFSTransportThreadProxy
  netQueue : List NetEvent
  /-- `m_bIsStopped` of the network thread's queue -/
  netStopped : Bool
  userQueue : List UserEvent
  user : UserPos
  net : NetPos
  /-- the user's sink has been given the transport -/
  indicated : Bool
  /-- the user has called `OpenWithSink` -/
  opened : Bool
  /-- the bytes written to the socket -/
  wire : Bytes
  /-- the bytes read from the socket -/
  rcvd : Bytes
  log : List LogEntry
  deriving DecidableEq, Repr

namespace World

/-- A connection right after the network thread's `OnConnectIndication`: the transport on
descriptor `fd` is open with the new proxy as its sink, and the indication is queued. -/
def init (fd : ℕ) : World where
  tcp := ⟨some fd, true, false, false⟩
  bound := true
  proxy := ⟨.tcp, false, false, false, false, false, []⟩
  netQueue := []
  netStopped := false
  userQueue := [.onConnectIndication]
  user := .idle
  net := .idle
  indicated := false
  opened := false
  wire := []
  rcvd := []
  log := []

/-! ### The user thread -/

/-- `SendData` up to its stop test. -/
def sendData (w : World) (d : Bytes) : Option World :=
  if w.user = .idle then
    if w.proxy.stopped then
      some { w with log := w.log ++ [.sendData d .ok true] }
    else
      some { w with user := .sendFull d }
  else none

/-- `OpenWithSink` with a sink that is not `NULL`. -/
def openWithSink (w : World) : Option World :=
  if w.user = .idle then
    some { w with proxy := { w.proxy with sinkActual := true }, opened := true }
  else none

/-- `Disconnect` up to its `PostEvent`. -/
def disconnect (w : World) : Option World :=
  if w.user = .idle then
    if w.proxy.stopped then
      some { w with log := w.log ++ [.disconnect] }
    else
      some { w with
        proxy := { w.proxy with stopped := true, sinkActual := false }
        user := .disconnectPost }
  else none

/-- The last reference goes: `ReleaseReference` or `OnReferenceDestory`, on whichever thread
drops it. -/
def release (w : World) : Option World :=
  some { w with proxy := { w.proxy with stopped := true } }

/-- `PostEvent` on the network thread's queue; a stopped queue destroys the event. -/
def postNet (w : World) (e : NetEvent) : World :=
  if w.netStopped then w else { w with netQueue := w.netQueue ++ [e] }

/-- The user thread goes on with the call it is in. -/
def userNext (w : World) : Option World :=
  match w.user with
  | .idle => none
  | .sendFull d =>
      some { w with user := if w.proxy.isBufferFull then .sendPartial d else .sendPost d }
  | .sendPartial d =>
      if w.proxy.partialDataLastTime then
        some { w with user := .sendPost d }
      else
        some { w with
          proxy := { w.proxy with needOnSend := true }
          user := .idle
          log := w.log ++ [.sendData d .partialData false] }
  | .sendPost d =>
      let rv := if w.netStopped then CAWResult.notInitialized else .ok
      some { w.postNet (.sendData d) with
        user := .idle
        log := w.log ++ [.sendData d rv false] }
  | .disconnectPost =>
      some { w.postNet .disconnect with
        user := .idle
        log := w.log ++ [.disconnect] }

/-- `OnEventFire` of a user-thread event. `cancelled` is whether the connector or acceptor
proxy is stopped when the indication fires; the transport is then disconnected. -/
def fire (w : World) (cancelled : Bool) : UserEvent → World
  | .onConnectIndication =>
      if cancelled then
        if w.proxy.stopped then w
        else
          { w with
            proxy := { w.proxy with stopped := true, sinkActual := false }
            user := .disconnectPost }
      else { w with indicated := true }
  | .onReceive d =>
      if w.proxy.stopped then w
      else if w.proxy.sinkActual then { w with log := w.log ++ [.onReceive d] }
      else w
  | .onSend =>
      if w.proxy.stopped then w
      else if w.proxy.sinkActual then
        if w.proxy.needOnSend then
          { w with
            proxy := { w.proxy with needOnSend := false }
            log := w.log ++ [.onSend] }
        else w
      else w
  | .onDisconnect =>
      if w.proxy.stopped then w
      else if w.proxy.sinkActual then
        { w with
          proxy := { w.proxy with stopped := true }
          log := w.log ++ [.onDisconnect] }
      else { w with proxy := { w.proxy with stopped := true } }

/-- The user thread takes the next event of its queue. -/
def fireUser (w : World) (cancelled : Bool) : Option World :=
  if w.user = .idle then
    match w.userQueue with
    | [] => none
    | e :: es => some ({ w with userQueue := es }.fire cancelled e)
  else none

/-! ### The network thread -/

/-- `Send_i` up to its flag writes, on the world. -/
def startSend (w : World) (script : List SendOutcome) (aData : Option Bytes)
    (upcall : Bool) : World :=
  let s := w.proxy.send_i w.tcp script aData
  { w with
    tcp := s.tcp
    proxy := { w.proxy with sendBuffer := s.sendBuffer }
    wire := w.wire ++ s.written
    net := .sendFlag₁ s.exit upcall }

/-- The network thread takes the next event of its queue. -/
def fireNet (w : World) (script : List SendOutcome) : Option World :=
  if w.net = .idle then
    match w.netQueue with
    | [] => none
    | .sendData d :: es => some ({ w with netQueue := es }.startSend script (some d) false)
    | .disconnect :: es =>
        -- `RemoveHandler` looks the descriptor up, so it unbinds it only while it is valid
        some { w with
          netQueue := es
          tcp := w.tcp.disconnect
          bound := w.bound && w.tcp.handle.isNone }
  else none

/-- The reactor reports the descriptor writable: `CFSTransportTcp::OnOutput` and, when the
transport is armed, the stop test of the proxy's `OnSend`. -/
def onOutput (w : World) (script : List SendOutcome) : Option World :=
  if w.net = .idle ∧ w.bound then
    if w.tcp.needOnSend then
      let w' := { w with tcp := w.tcp.disarm }
      if w.tcp.sink then
        if w.proxy.stopped then some w'
        else if w.proxy.type = .udp then some w'
        else some (w'.startSend script none true)
      else some w'
    else some w
  else none

/-- The reactor reports the descriptor readable. -/
def onInput (w : World) : Option World :=
  if w.net = .idle ∧ w.bound then some { w with net := .inputLoop } else none

/-- `OnReceive` up to its stop test: called by the transport on the bytes it has just read,
if it has a sink. -/
def onReceive (w : World) (d : Bytes) (loop : Bool) : World :=
  let w' := { w with rcvd := w.rcvd ++ d }
  let back : NetPos := if loop then .inputLoop else .idle
  if w.tcp.sink then
    if w.proxy.stopped then { w' with net := back } else { w' with net := .receivePost d loop }
  else { w' with net := back }

/-- The reactor unbinds the handler and calls `CFSTransportBase::OnClose`, which runs up to
the stop test of the proxy's `OnDisconnect`. -/
def onClose (w : World) : World :=
  if w.tcp.sink then
    let t := { w.tcp.close_t with sink := false }
    if w.proxy.stopped then { w with bound := false, tcp := t, net := .idle }
    else { w with bound := false, tcp := t.disconnect, net := .onDisconnectPost }
  else { w with bound := false, net := .idle }

/-- One turn of the loop of `OnEpollInput`. A negative result makes the reactor remove the
handler. -/
def recv (w : World) (r : RecvOutcome) : Option World :=
  if w.net = .inputLoop then
    match r with
    | .data b bs => some (w.onReceive (b :: bs) true)
    | .wouldBlock available =>
        some { w with
          tcp := { w.tcp with rereceive := w.tcp.rereceive || available }
          net := .idle }
    | .closed => some w.onClose
  else none

/-- `CFSTransportTcp::OnTimer`: one more receive, whose failure is ignored. -/
def onTimer (w : World) (r : RecvOutcome) : Option World :=
  if w.net = .idle ∧ w.tcp.rereceive then
    let w' := { w with tcp := { w.tcp with rereceive := false } }
    match r with
    | .data b bs => some (w'.onReceive (b :: bs) false)
    | .wouldBlock _ => some w'
    | .closed => some w'
  else none

/-- The reactor handles a close event of the descriptor. -/
def closeEvent (w : World) : Option World :=
  if w.net = .idle ∧ w.bound then some w.onClose else none

/-- The network thread goes on with the call it is in. -/
def netNext (w : World) : Option World :=
  match w.net with
  | .idle => none
  | .inputLoop => none
  | .sendFlag₁ exit upcall =>
      some { w with proxy := w.proxy.writeFlag₁ exit, net := .sendFlag₂ exit upcall }
  | .sendFlag₂ exit upcall =>
      let p := w.proxy.writeFlag₂ exit
      -- back in `OnSend`: nothing is posted while the buffer is full
      some { w with
        proxy := p
        net := if upcall && !p.isBufferFull then .onSendPost else .idle }
  | .onSendPost => some { w with userQueue := w.userQueue ++ [.onSend], net := .idle }
  | .receivePost d loop =>
      some { w with
        userQueue := w.userQueue ++ [.onReceive d]
        net := if loop then .inputLoop else .idle }
  | .onDisconnectPost =>
      some { w with userQueue := w.userQueue ++ [.onDisconnect], net := .idle }

/-! ### Steps -/

/-- What can happen next, with the choices of the environment. -/
inductive Action
  | sendData (d : Bytes)
  | openWithSink
  | disconnect
  | release
  | fireUser (cancelled : Bool)
  | userNext
  | fireNet (script : List SendOutcome)
  | onOutput (script : List SendOutcome)
  | onInput
  | recv (r : RecvOutcome)
  | onTimer (r : RecvOutcome)
  | closeEvent
  | netNext
  | stopQueue
  deriving DecidableEq, Repr

/-- The step function; every interleaving of the two threads is a list of actions. -/
def step (w : World) : Action → Option World
  | .sendData d => w.sendData d
  | .openWithSink => w.openWithSink
  | .disconnect => w.disconnect
  | .release => w.release
  | .fireUser cancelled => w.fireUser cancelled
  | .userNext => w.userNext
  | .fireNet script => w.fireNet script
  | .onOutput script => w.onOutput script
  | .onInput => w.onInput
  | .recv r => w.recv r
  | .onTimer r => w.onTimer r
  | .closeEvent => w.closeEvent
  | .netNext => w.netNext
  | .stopQueue => some { w with netStopped := true }

end World

end VosStack
