import VosStack.Reactor.Listen

/-!
# The connector wrapper

`CFSConnectorWrapper` makes one connection attempt at a time, with a `CFSConnectorTcpT` or a
`CFSConnectorUdpT`. An attempt is ended by the socket (`OnOutput`, `OnClose`), by a timer of the
connector, by the wrapper's own timer, which reports a failing `Connect` or a timeout, or by
`CancelConnect`. Each of them goes through `Close_i` before the sink is called.

So **an attempt is reported at most once**, never after `CancelConnect`, and when the sink is called
the wrapper is closed, and neither a binding nor a timer is left. The invariant is that there are
bindings and timers only while the wrapper is not closed, and that the descriptor bound to the
connector is that of its transport, with no event that `Close` does not remove.

`Connect` may meet anything: its results are inputs, and assertions only report. The repository is
that of `Reactor.Handlers`. Other handlers use it too, on any descriptor, and descriptors are opened
and closed. An event of a descriptor may be reported whenever
it is bound, also one that is out of date. Timers expire in any order; a timer that expires is no
longer in the queue when its handler is called, and `CancelTimer` removes all timers of its handler.
The sink's code runs in the callback; what it calls there are steps of the run after the indication,
since nothing follows the callback. `AsycConnect` is called while the wrapper is closed, with a
sink.
-/

namespace VosStack.Wrapper

open Handlers (Masks CElement Other Among isBound_iff)
open Listen (Attempt openSocket closeSocket registerHandler)
open Transition

/-! ### The state -/

/-- A timer, with its handler and its argument. -/
inductive Timer
  /-- of the wrapper, with `CAW_ERROR_NETWORK_CONNECT_ERROR` -/
  | error
  /-- of the wrapper, with `CAW_ERROR_NETWORK_CONNECT_TIMEOUT` -/
  | timeout
  /-- of the `CFSConnectorUdpT` -/
  | connector
  deriving DecidableEq, Repr

/-- Ghost: the state in which a sink is called. -/
structure Left where
  closed : Bool
  transport : Option ℤ
  repository : ℤ → Option CElement
  timers : List Timer

/-- Ghost: what happened, in order. Attempts are numbered, and so are their sinks. -/
inductive Entry
  /-- `OnConnectIndication` of the sink, none for a call through `NULL` -/
  | indicate (sink : Option ℕ) (reason : CAWResult) (left : Left)
  /-- `CancelConnect`, after `n` attempts -/
  | cancel (n : ℕ)

structure World where
  reactor : Handlers.World
  /-- `m_pSink` -/
  sink : Option ℕ
  /-- `m_bClosed` -/
  closed : Bool
  /-- `m_pTransport` of the connector, with its handle -/
  transport : Option ℤ
  timers : List Timer
  /-- the number of `AsycConnect` calls -/
  next : ℕ
  /-- ghost -/
  log : List Entry

def init : World := ⟨Handlers.init, none, true, none, [], 0, []⟩

/-- What a `connect()` returns. -/
inductive Connected
  | done
  | inProgress
  | error
  deriving DecidableEq, Repr

/-- What an `AsycConnect` meets. -/
structure Script where
  /-- there is memory for the transport -/
  newTransport : Bool
  /-- the new socket and its registration -/
  attempt : Attempt
  /-- `Enable(NON_BLOCK)` -/
  enable : Bool
  connect : Connected
  /-- what `NotifyHandler` returns -/
  notifyHandler : ℤ
  /-- `ScheduleTimer` finds a timer queue -/
  timerQueue : Bool
  deriving DecidableEq, Repr

/-! ### The connectors -/

variable (M : Masks) (type : CType) (eh : ℕ)

namespace World

def scheduleTimer (w : World) (s : Script) (t : Timer) : World :=
  if s.timerQueue then { w with timers := w.timers ++ [t] } else w

/-- `CFSSocketTcp::Open` and `CFSSocketUdp::Open`: a socket that cannot be bound is closed. -/
def openPeer (w : World) (s : Script) : World :=
  let (reactor, fd) := openSocket w.reactor s.attempt
  if fd = -1 then { w with reactor, transport := some (-1) }
  else if !s.attempt.bind then { w with reactor := closeSocket reactor fd, transport := some (-1) }
  else { w with reactor, transport := some fd }

/-- `CFSConnectorTcpT::Connect_i`. -/
def connect_i (w : World) (s : Script) : World × ℤ :=
  let w := w.openPeer s
  match w.transport with
  | none => (w, -1)
  | some fd =>
    if fd = -1 then (w, -1)
    else if !s.enable then (w, -1)
    else
      let (reactor, rv) := registerHandler M w.reactor eh fd M.connect s.attempt
      let w := { w with reactor }
      if rv.failed then (w, -1)
      else
        match s.connect with
        | .inProgress => (w, 1)
        | .error => (w, -1)
        | .done => (w, 0)

/-- `CFSConnectorTcpT::Connect`. -/
def connectTcp (w : World) (s : Script) : World × ℤ :=
  if !s.newTransport then ({ w with transport := none }, -1)
  else
    let (w, nRet) := w.connect_i M eh s
    if nRet = 0 then (w, s.notifyHandler)
    else if nRet = 1 then (w, 0)
    else (w, nRet)

/-- `CFSConnectorUdpT::Connect`. -/
def connectUdp (w : World) (s : Script) : World × ℤ :=
  if w.transport ≠ none then (w, -1)
  else if !s.newTransport then (w, -1)
  else
    let w := w.openPeer s
    if w.transport = some (-1) then (w, -1)
    else
      match s.connect with
      | .done => (w.scheduleTimer s .connector, 0)
      | _ => (w, -1)

def connect (w : World) (s : Script) : World × ℤ :=
  match type with
  | .tcp => w.connectTcp M eh s
  | .udp => w.connectUdp s

/-- `Close` of the connector. -/
def closeConnector (w : World) : World :=
  match type with
  | .tcp =>
    match w.transport with
    | none => w
    | some fd =>
      -- the socket is closed with the last reference to the transport, here or later
      { w with reactor := (w.reactor.removeHandler M eh fd M.connect).1, transport := none }
  | .udp =>
    let w := { w with timers := w.timers.filter (· ≠ Timer.connector) }
    match w.transport with
    | none => w
    | some fd =>
      -- the destructor of the transport closes its socket
      { w with
        reactor := if fd = -1 then w.reactor else closeSocket w.reactor fd
        transport := none }

/-! ### The wrapper -/

/-- `Close_i`. -/
def close_i (w : World) : World :=
  if w.closed then w
  else
    let w := closeConnector M type eh { w with closed := true }
    { w with timers := w.timers.filter (· = Timer.connector) }

def left (w : World) : Left := ⟨w.closed, w.transport, w.reactor.repository, w.timers⟩

/-- `m_pSink->OnConnectIndication`. -/
def callSink (w : World) (reason : CAWResult) : World :=
  { w with log := w.log ++ [.indicate w.sink reason w.left] }

/-- `CFSConnectorWrapper::OnConnectIndication`. -/
def onConnectIndication (w : World) (aReason : CAWResult) : World :=
  (w.close_i M type eh).callSink aReason

/-- `CFSConnectorWrapper::CancelConnect`. -/
def cancelConnect (w : World) : World :=
  { w.close_i M type eh with sink := none, log := w.log ++ [.cancel w.next] }

/-- `CFSConnectorWrapper::AsycConnect`; `aTimeout` says whether there is one. -/
def asycConnect (w : World) (s : Script) (aTimeout : Bool) : World :=
  let w := { w with sink := some w.next, closed := false, next := w.next + 1 }
  let (w, nRet) := w.connect M type eh s
  if nRet = -1 then w.scheduleTimer s .error
  else if aTimeout then w.scheduleTimer s .timeout
  else w

/-- `OnTimeout` of the handler of a timer that has expired. -/
def onTimeout (w : World) : Timer → World
  | .error => (w.close_i M type eh).callSink .networkConnectError
  | .timeout => (w.close_i M type eh).callSink .networkConnectTimeout
  | .connector => onConnectIndication M type eh { w with transport := none } .ok

/-- `CFSConnectorTcpT::OnClose`; that of `CFSConnectorUdpT` does nothing. -/
def onClose (w : World) : World :=
  match type with
  | .tcp => (w.closeConnector M .tcp eh).onConnectIndication M .tcp eh .networkSocketError
  | .udp => w

end World

/-! ### The system -/

inductive Action
  | asycConnect (s : Script) (aTimeout : Bool)
  | cancelConnect
  /-- the reactor calls `OnOutput` -/
  | output (fd : ℤ)
  /-- the reactor ends the binding and calls `OnClose` -/
  | close (fd : ℤ)
  /-- a timer expires -/
  | timer (t : Timer)
  | other (o : Other)
  deriving DecidableEq, Repr

def step (w : World) : Action → Option World
  | .asycConnect s aTimeout => if w.closed then some (w.asycConnect M type eh s aTimeout) else none
  | .cancelConnect => some (w.cancelConnect M type eh)
  | .output fd =>
    if w.reactor.isBound eh fd then some (w.onConnectIndication M type eh .ok) else none
  | .close fd =>
    if w.reactor.isBound eh fd then
      let w := { w with reactor := (w.reactor.unBind fd).onHandleRemoved fd }
      some (w.onClose M type eh)
    else none
  | .timer t =>
    if t ∈ w.timers then
      let w := { w with timers := w.timers.erase t }
      some (w.onTimeout M type eh t)
    else none
  | .other o => if o.Apart eh then some { w with reactor := w.reactor.other M o } else none

/-! ### The contract -/

/-- The wrapper can be used again: it is closed, and nothing of the attempt is left. -/
structure Clear (l : Left) : Prop where
  closed : l.closed = true
  transport : l.transport = none
  unbound : ∀ fd ele, l.repository fd = some ele → ele.eh ≠ eh
  timers : l.timers = []

/-- The sinks are called in the order of the attempts, each once, and not after they were
cancelled. -/
def Entry.Before : Entry → Entry → Prop
  | .indicate n _ _, .indicate m _ _ => ∀ i ∈ n, ∀ j ∈ m, i < j
  | .cancel k, .indicate m _ _ => ∀ j ∈ m, k ≤ j
  | _, .cancel _ => True

structure ConnectOk (w : World) : Prop where
  order : w.log.Pairwise Entry.Before
  sink : ∀ n reason l, .indicate n reason l ∈ w.log → ∃ i, n = some i ∧ i < w.next
  clear : ∀ n reason l, .indicate n reason l ∈ w.log → Clear eh l

/-! ### The invariant -/

/-- Only the descriptor of the transport is bound to the connector, and `Close` removes all its
events. -/
structure Bindings (w : World) : Prop where
  bound : ∀ fd ele, w.reactor.repository fd = some ele → ele.eh = eh →
    type = .tcp ∧ w.transport = some fd ∧ Among ele.mask (M.connect &&& M.allEvents)
  timers : ∀ t ∈ w.timers, t = .connector → type = .udp

/-- What the log says about an attempt that is not yet over, the last one. -/
def Entry.Older (n : ℕ) : Entry → Prop
  | .indicate m _ _ => ∀ j ∈ m, j < n
  | .cancel k => k ≤ n

structure Inv (w : World) : Prop where
  bindings : Bindings M type eh w
  clear : w.closed = true → Clear eh w.left
  sink : w.closed = false → ∃ n, w.sink = some n ∧ w.next = n + 1 ∧ ∀ e ∈ w.log, e.Older n
  older : ∀ e ∈ w.log, e.Older w.next
  ok : ConnectOk eh w

theorem inv_init : Inv M type eh init where
  bindings := ⟨fun _ _ h => absurd h (Option.some_ne_none _).symm,
    fun _ h => absurd h List.not_mem_nil⟩
  clear _ := ⟨rfl, rfl, fun _ _ h => absurd h (Option.some_ne_none _).symm, rfl⟩
  sink h := nomatch h
  older _ h := absurd h List.not_mem_nil
  ok := ⟨.nil, fun _ _ _ h => absurd h List.not_mem_nil, fun _ _ _ h => absurd h List.not_mem_nil⟩

variable {M type eh} {w w' : World}

/-- The fields that only `AsycConnect`, `Close_i` and the calls of the sink write. -/
structure Frame (w' w : World) : Prop where
  sink : w'.sink = w.sink
  closed : w'.closed = w.closed
  next : w'.next = w.next
  log : w'.log = w.log

theorem Frame.trans {w'' : World} (h : Frame w'' w') (h' : Frame w' w) : Frame w'' w :=
  ⟨h.sink.trans h'.sink, h.closed.trans h'.closed, h.next.trans h'.next, h.log.trans h'.log⟩

theorem bindings_of_clear (h : Clear eh w.left) : Bindings M type eh w where
  bound fd ele hele heh := absurd heh (h.unbound fd ele hele)
  timers t ht := by
    have hnil : w.timers = [] := h.timers
    rw [hnil] at ht
    exact absurd ht List.not_mem_nil

/-- While the wrapper is not closed, the invariant depends on the bindings only. -/
theorem Inv.of_frame (h : Inv M type eh w) (hopen : w.closed = false)
    (hbind : Bindings M type eh w') (hframe : Frame w' w) : Inv M type eh w' where
  bindings := hbind
  clear hclosed := by
    rw [hframe.closed, hopen] at hclosed
    contradiction
  sink _ := by
    rw [hframe.sink, hframe.next, hframe.log]
    exact h.sink hopen
  older := by
    rw [hframe.next, hframe.log]
    exact h.older
  ok := by
    obtain ⟨order, sink, clear⟩ := h.ok
    refine ⟨?_, ?_, ?_⟩
    · rw [hframe.log]
      exact order
    · rw [hframe.log, hframe.next]
      exact sink
    · rw [hframe.log]
      exact clear

/-! ### `Close_i` -/

theorem closeConnector_frame (M : Masks) (type : CType) (eh : ℕ) (w : World) :
    Frame (w.closeConnector M type eh) w := by
  unfold World.closeConnector
  split
  · split
    · exact ⟨rfl, rfl, rfl, rfl⟩
    · exact ⟨rfl, rfl, rfl, rfl⟩
  · dsimp only
    split
    · exact ⟨rfl, rfl, rfl, rfl⟩
    · exact ⟨rfl, rfl, rfl, rfl⟩

/-- `Close` of the TCP connector: its binding is that of the transport. -/
theorem closeConnector_tcp (h : Bindings M .tcp eh w) :
    (w.closeConnector M .tcp eh).transport = none ∧
      (w.closeConnector M .tcp eh).reactor.Free eh := by
  rw [World.closeConnector]
  split
  · next hnone =>
    refine ⟨hnone, fun fd ele hele heh => ?_⟩
    have hsome := (h.bound fd ele hele heh).2.1
    rw [hnone] at hsome
    contradiction
  · next fd hfd =>
    refine ⟨rfl, (Handlers.removed_removeHandler M w.reactor eh fd M.connect).free ?_⟩
    intro fd' ele hele heh
    obtain ⟨-, hsome, hall⟩ := h.bound fd' ele hele heh
    rw [hfd] at hsome
    exact ⟨(Option.some_inj.mp hsome).symm, hall⟩

theorem closeConnector_udp (h : Bindings M .udp eh w) :
    (w.closeConnector M .udp eh).transport = none ∧
      (w.closeConnector M .udp eh).reactor.Free eh := by
  have hfree : w.reactor.Free eh := by
    intro fd ele hele heh
    have htcp := (h.bound fd ele hele heh).1
    contradiction
  rw [World.closeConnector]
  dsimp only
  split
  · next hnone => exact ⟨hnone, hfree⟩
  · next fd _ =>
    refine ⟨rfl, ?_⟩
    dsimp only
    split
    · exact hfree
    · exact hfree

theorem closeConnector_timers (h : Bindings M type eh w) :
    ∀ t ∈ (w.closeConnector M type eh).timers, t ≠ .connector ∧ t ∈ w.timers := by
  intro t ht
  unfold World.closeConnector at ht
  split at ht
  · have hmem : t ∈ w.timers := by
      split at ht
      · exact ht
      · exact ht
    refine ⟨fun hc => ?_, hmem⟩
    have hudp := h.timers t hmem hc
    contradiction
  · have hmem : t ∈ w.timers.filter (· ≠ Timer.connector) := by
      dsimp only at ht
      split at ht
      · exact ht
      · exact ht
    rw [List.mem_filter, decide_eq_true_eq] at hmem
    exact ⟨hmem.2, hmem.1⟩

theorem closeConnector_clear (h : Bindings M type eh w) :
    (w.closeConnector M type eh).transport = none ∧
      (w.closeConnector M type eh).reactor.Free eh := by
  cases type with
  | tcp => exact closeConnector_tcp h
  | udp => exact closeConnector_udp h

theorem closeConnector_bindings (h : Bindings M type eh w) :
    Bindings M type eh (w.closeConnector M type eh) where
  bound fd ele hele heh := absurd heh ((closeConnector_clear h).2 fd ele hele)
  timers t ht hc := absurd hc (closeConnector_timers h t ht).1

/-- After `Close_i` nothing of an attempt is left. -/
theorem close_i_clear (h : Inv M type eh w) : Clear eh (w.close_i M type eh).left := by
  rw [World.close_i]
  split
  · next hclosed => exact h.clear hclosed
  · have hbind : Bindings M type eh { w with closed := true } :=
      ⟨h.bindings.bound, h.bindings.timers⟩
    obtain ⟨htransport, hfree⟩ := closeConnector_clear hbind
    have hclosed := (closeConnector_frame M type eh { w with closed := true }).closed
    refine ⟨hclosed, htransport, hfree, ?_⟩
    -- the connector has cancelled its own timers, and the wrapper cancels the others
    apply List.filter_eq_nil_iff.mpr
    intro t ht hc
    exact (closeConnector_timers hbind t ht).1 (of_decide_eq_true hc)

theorem close_i_frame (M : Masks) (type : CType) (eh : ℕ) (w : World) :
    (w.close_i M type eh).sink = w.sink ∧ (w.close_i M type eh).next = w.next ∧
      (w.close_i M type eh).log = w.log := by
  rw [World.close_i]
  split
  · exact ⟨rfl, rfl, rfl⟩
  · have hframe := closeConnector_frame M type eh { w with closed := true }
    exact ⟨hframe.sink, hframe.next, hframe.log⟩

/-- An entry is written in a state in which nothing of an attempt is left. -/
theorem Inv.record {e : Entry} (h : Inv M type eh w) (hclear : Clear eh w'.left)
    (hnext : w'.next = w.next) (hlog : w'.log = w.log ++ [e]) (hold : e.Older w.next)
    (hbefore : ∀ x ∈ w.log, x.Before e)
    (hind : ∀ n reason l, e = .indicate n reason l → (∃ i, n = some i ∧ i < w.next) ∧ Clear eh l) :
    Inv M type eh w' := by
  refine ⟨bindings_of_clear hclear, fun _ => hclear, fun hfalse => ?_, ?_, ?_, ?_, ?_⟩
  · have htrue : w'.closed = true := hclear.closed
    rw [htrue] at hfalse
    contradiction
  · rw [hlog, hnext]
    exact (forall_mem_snoc_iff h.older).mpr hold
  · rw [hlog]
    exact pairwise_snoc h.ok.order hbefore
  · rw [hlog, hnext]
    intro n reason l hx
    rcases List.mem_append.mp hx with hx | hx
    · exact h.ok.sink n reason l hx
    · exact (hind n reason l (List.mem_singleton.mp hx).symm).1
  · rw [hlog]
    intro n reason l hx
    rcases List.mem_append.mp hx with hx | hx
    · exact h.ok.clear n reason l hx
    · exact (hind n reason l (List.mem_singleton.mp hx).symm).2

/-- The sink of an attempt is called once, after `Close_i`. -/
theorem Inv.indicate (h : Inv M type eh w) (hopen : w.closed = false) (reason : CAWResult) :
    Inv M type eh ((w.close_i M type eh).callSink reason) := by
  obtain ⟨hsink, hnext, hlog⟩ := close_i_frame M type eh w
  have hclear := close_i_clear h
  obtain ⟨n, hn, hn', hold⟩ := h.sink hopen
  have hlt : n < w.next := by omega
  have hwrite : ((w.close_i M type eh).callSink reason).log =
      w.log ++ [.indicate (some n) reason (w.close_i M type eh).left] := by
    rw [World.callSink, hlog, hsink, hn]
  refine h.record hclear hnext hwrite ?_ ?_ ?_
  · rintro _ ⟨rfl⟩
    exact hlt
  · -- the attempt has been neither reported nor cancelled yet
    intro x hx
    have hx' := hold x hx
    cases x with
    | indicate m r l =>
      rintro i hi _ ⟨rfl⟩
      exact hx' i hi
    | cancel k =>
      rintro _ ⟨rfl⟩
      exact hx'
  · rintro _ _ _ ⟨rfl, rfl, rfl⟩
    exact ⟨⟨n, rfl, hlt⟩, hclear⟩

theorem Inv.cancelConnect (h : Inv M type eh w) : Inv M type eh (w.cancelConnect M type eh) := by
  have hclear : Clear eh (w.cancelConnect M type eh).left := close_i_clear h
  have hnext := (close_i_frame M type eh w).2.1
  refine h.record hclear hnext rfl (Nat.le_refl w.next) ?_ ?_
  · intro x _
    cases x with
    | indicate => trivial
    | cancel => trivial
  · intro n reason l heq
    contradiction

/-! ### `AsycConnect` -/

theorem openPeer_frame (w : World) (s : Script) : Frame (w.openPeer s) w ∧
    (w.openPeer s).reactor.repository = w.reactor.repository ∧
      (w.openPeer s).timers = w.timers := by
  rw [World.openPeer]
  rcases Listen.openSocket_cases w.reactor s.attempt with heq | ⟨fd, -, -, -, heq⟩
  · rw [heq]
    exact ⟨⟨rfl, rfl, rfl, rfl⟩, rfl, rfl⟩
  · rw [heq]
    dsimp only
    split
    · exact ⟨⟨rfl, rfl, rfl, rfl⟩, rfl, rfl⟩
    · split
      · exact ⟨⟨rfl, rfl, rfl, rfl⟩, rfl, rfl⟩
      · exact ⟨⟨rfl, rfl, rfl, rfl⟩, rfl, rfl⟩

theorem bindings_of_free (hfree : w.reactor.Free eh)
    (htimers : ∀ t ∈ w.timers, t = .connector → type = .udp) : Bindings M type eh w :=
  ⟨fun fd ele hele heh => absurd heh (hfree fd ele hele), htimers⟩

/-- `Connect_i` registers the descriptor of the transport. -/
theorem connect_i_spec (s : Script) (hfree : w.reactor.Free eh)
    (htimers : ∀ t ∈ w.timers, t ≠ .connector) :
    Frame (w.connect_i M eh s).1 w ∧ Bindings M .tcp eh (w.connect_i M eh s).1 := by
  obtain ⟨hframe, hrep, htime⟩ := openPeer_frame w s
  have hfree' : (w.openPeer s).reactor.Free eh := by
    intro fd ele hele
    rw [hrep] at hele
    exact hfree fd ele hele
  have htimers' : ∀ t ∈ (w.openPeer s).timers, t = .connector → CType.tcp = .udp := by
    intro t ht hc
    rw [htime] at ht
    exact absurd hc (htimers t ht)
  have hbind : Bindings M .tcp eh (w.openPeer s) := bindings_of_free hfree' htimers'
  rw [World.connect_i]
  dsimp only
  split
  · exact ⟨hframe, hbind⟩
  next fd hfd =>
  split
  · exact ⟨hframe, hbind⟩
  split
  · exact ⟨hframe, hbind⟩
  have hreg : Bindings M .tcp eh { w.openPeer s with
      reactor := (registerHandler M (w.openPeer s).reactor eh fd M.connect s.attempt).1 } := by
    refine ⟨fun fd' ele hele heh => ?_, htimers'⟩
    have hregistered :=
      Listen.registered_attempt M (w.openPeer s).reactor eh fd M.connect s.attempt
    obtain ⟨rfl, hall⟩ := hregistered.of_free hfree' hele heh
    exact ⟨rfl, hfd, hall⟩
  have hframe' : Frame { w.openPeer s with
      reactor := (registerHandler M (w.openPeer s).reactor eh fd M.connect s.attempt).1 } w :=
    ⟨hframe.sink, hframe.closed, hframe.next, hframe.log⟩
  split
  · exact ⟨hframe', hreg⟩
  split
  · exact ⟨hframe', hreg⟩
  · exact ⟨hframe', hreg⟩
  · exact ⟨hframe', hreg⟩

theorem connectTcp_spec (s : Script) (hfree : w.reactor.Free eh)
    (htimers : ∀ t ∈ w.timers, t ≠ .connector) :
    Frame (w.connectTcp M eh s).1 w ∧ Bindings M .tcp eh (w.connectTcp M eh s).1 := by
  rw [World.connectTcp]
  split
  · have hbind : Bindings M .tcp eh { w with transport := none } :=
      bindings_of_free hfree fun t ht hc => absurd hc (htimers t ht)
    exact ⟨⟨rfl, rfl, rfl, rfl⟩, hbind⟩
  · have hspec := connect_i_spec (M := M) s hfree htimers
    dsimp only
    split
    · exact hspec
    split
    · exact hspec
    · exact hspec

theorem scheduleTimer_frame (w : World) (s : Script) (t : Timer) :
    Frame (w.scheduleTimer s t) w := by
  rw [World.scheduleTimer]
  split
  · exact ⟨rfl, rfl, rfl, rfl⟩
  · exact ⟨rfl, rfl, rfl, rfl⟩

theorem scheduleTimer_bindings {t : Timer} (h : Bindings M type eh w) (s : Script)
    (ht : t = .connector → type = .udp) : Bindings M type eh (w.scheduleTimer s t) := by
  rw [World.scheduleTimer]
  split
  · exact ⟨h.bound, (forall_mem_snoc_iff h.timers).mpr ht⟩
  · exact h

/-- `Connect` of the UDP connector registers nothing; it is its timer that reports. -/
theorem connectUdp_spec (s : Script) (hfree : w.reactor.Free eh) :
    Frame (w.connectUdp s).1 w ∧ Bindings M .udp eh (w.connectUdp s).1 := by
  obtain ⟨hframe, hrep, -⟩ := openPeer_frame w s
  have hfree' : (w.openPeer s).reactor.Free eh := by
    intro fd ele hele
    rw [hrep] at hele
    exact hfree fd ele hele
  have hbind : Bindings M .udp eh (w.openPeer s) := bindings_of_free hfree' fun _ _ _ => rfl
  have hsame : Frame w w ∧ Bindings M .udp eh w :=
    ⟨⟨rfl, rfl, rfl, rfl⟩, bindings_of_free hfree fun _ _ _ => rfl⟩
  rw [World.connectUdp]
  split
  · exact hsame
  split
  · exact hsame
  dsimp only
  split
  · exact ⟨hframe, hbind⟩
  split
  · exact ⟨(scheduleTimer_frame _ s .connector).trans hframe,
      scheduleTimer_bindings hbind s fun _ => rfl⟩
  · exact ⟨hframe, hbind⟩

theorem connect_spec (type : CType) (s : Script) (hfree : w.reactor.Free eh)
    (htimers : ∀ t ∈ w.timers, t ≠ .connector) :
    Frame (w.connect M type eh s).1 w ∧ Bindings M type eh (w.connect M type eh s).1 := by
  cases type with
  | tcp => exact connectTcp_spec s hfree htimers
  | udp => exact connectUdp_spec s hfree

/-- A new attempt is the last one, and nothing has been said about it. -/
theorem Inv.attempt (h : Inv M type eh w) :
    Inv M type eh { w with sink := some w.next, closed := false, next := w.next + 1 } where
  bindings := ⟨h.bindings.bound, h.bindings.timers⟩
  clear hfalse := nomatch hfalse
  sink _ := ⟨w.next, rfl, rfl, h.older⟩
  older e he := by
    have hold := h.older e he
    cases e with
    | indicate m r l => exact fun j hj => Nat.lt_succ_of_lt (hold j hj)
    | cancel k => exact Nat.le_succ_of_le hold
  ok := by
    refine ⟨h.ok.order, fun n reason l he => ?_, h.ok.clear⟩
    obtain ⟨i, hi, hlt⟩ := h.ok.sink n reason l he
    exact ⟨i, hi, Nat.lt_succ_of_lt hlt⟩

theorem Inv.asycConnect (h : Inv M type eh w) (hclosed : w.closed = true) (s : Script)
    (aTimeout : Bool) : Inv M type eh (w.asycConnect M type eh s aTimeout) := by
  have hclear := h.clear hclosed
  have htimers : ∀ t ∈ w.timers, t ≠ .connector := by
    intro t ht
    have hnil : w.timers = [] := hclear.timers
    rw [hnil] at ht
    exact absurd ht List.not_mem_nil
  have hnew := h.attempt
  obtain ⟨hframe, hbind⟩ := connect_spec (M := M)
    (w := { w with sink := some w.next, closed := false, next := w.next + 1 }) type s
    hclear.unbound htimers
  rw [World.asycConnect]
  dsimp only
  split
  · exact hnew.of_frame rfl (scheduleTimer_bindings hbind s fun hc => nomatch hc)
      ((scheduleTimer_frame _ s .error).trans hframe)
  split
  · exact hnew.of_frame rfl (scheduleTimer_bindings hbind s fun hc => nomatch hc)
      ((scheduleTimer_frame _ s .timeout).trans hframe)
  · exact hnew.of_frame rfl hbind hframe

/-! ### The other steps -/

theorem Inv.open_of_bound {fd : ℤ} (h : Inv M type eh w) (hbound : w.reactor.isBound eh fd = true) :
    w.closed = false := by
  obtain ⟨ele, hele, heh⟩ := isBound_iff.mp hbound
  by_contra hclosed
  exact (h.clear (eq_true_of_ne_false hclosed)).unbound fd ele hele heh

theorem Inv.open_of_timer {t : Timer} (h : Inv M type eh w) (ht : t ∈ w.timers) :
    w.closed = false := by
  by_contra hclosed
  have hnil : w.timers = [] := (h.clear (eq_true_of_ne_false hclosed)).timers
  rw [hnil] at ht
  exact List.not_mem_nil ht

/-- The reactor has ended the binding when it calls `OnClose`. -/
theorem Inv.onClose {fd : ℤ} (h : Inv M type eh w) (hbound : w.reactor.isBound eh fd = true) :
    Inv M type eh
      (World.onClose M type eh { w with reactor := (w.reactor.unBind fd).onHandleRemoved fd }) := by
  have hopen := h.open_of_bound hbound
  obtain ⟨ele, hele, heh⟩ := isBound_iff.mp hbound
  obtain ⟨rfl, -⟩ := h.bindings.bound fd ele hele heh
  have hbind : Bindings M .tcp eh
      { w with reactor := (w.reactor.unBind fd).onHandleRemoved fd } := by
    refine ⟨fun fd' ele' hele' heh' => ?_, h.bindings.timers⟩
    rcases Table.update_cases hele' with ⟨-, hnone⟩ | ⟨-, hele'⟩
    · contradiction
    · exact h.bindings.bound fd' ele' hele' heh'
  have hframe := closeConnector_frame M .tcp eh
    { w with reactor := (w.reactor.unBind fd).onHandleRemoved fd }
  have hinv := h.of_frame hopen (closeConnector_bindings hbind)
    ⟨hframe.sink, hframe.closed, hframe.next, hframe.log⟩
  exact hinv.indicate (hframe.closed.trans hopen) .networkSocketError

theorem Inv.onTimeout {t : Timer} (h : Inv M type eh w) (ht : t ∈ w.timers) :
    Inv M type eh (World.onTimeout M type eh { w with timers := w.timers.erase t } t) := by
  have hopen := h.open_of_timer ht
  have htimers : ∀ t' ∈ w.timers.erase t, t' = .connector → type = .udp :=
    fun t' ht' => h.bindings.timers t' (List.mem_of_mem_erase ht')
  have hbind : Bindings M type eh { w with timers := w.timers.erase t } :=
    ⟨h.bindings.bound, htimers⟩
  have hinv := h.of_frame hopen hbind ⟨rfl, rfl, rfl, rfl⟩
  cases t with
  | error => exact hinv.indicate hopen .networkConnectError
  | timeout => exact hinv.indicate hopen .networkConnectTimeout
  | connector =>
    -- the UDP connector hands its transport over; it has no binding
    obtain rfl := h.bindings.timers .connector ht rfl
    have hfree : w.reactor.Free eh := by
      intro fd ele hele heh
      have htcp := (h.bindings.bound fd ele hele heh).1
      contradiction
    have hbind' : Bindings M .udp eh
        { w with timers := w.timers.erase .connector, transport := none } :=
      bindings_of_free hfree htimers
    exact (h.of_frame hopen hbind' ⟨rfl, rfl, rfl, rfl⟩).indicate hopen .ok

/-- Other handlers can only take events of the connector away. -/
theorem Inv.other {o : Other} (h : Inv M type eh w) (ho : o.Apart eh) :
    Inv M type eh { w with reactor := w.reactor.other M o } where
  bindings := by
    refine ⟨fun fd ele' hele' heh => ?_, h.bindings.timers⟩
    obtain ⟨ele, hele, hsame, hsub⟩ := Handlers.other_within ho hele' heh
    obtain ⟨htcp, htransport, hall⟩ := h.bindings.bound fd ele hele (hsame.trans heh)
    exact ⟨htcp, htransport, hsub _ hall⟩
  clear hclosed := by
    obtain ⟨hc, htransport, hfree, htimers⟩ := h.clear hclosed
    refine ⟨hc, htransport, fun fd ele' hele' heh => ?_, htimers⟩
    obtain ⟨ele, hele, hsame, -⟩ := Handlers.other_within ho hele' heh
    exact hfree fd ele hele (hsame.trans heh)
  sink := h.sink
  older := h.older
  ok := ⟨h.ok.order, h.ok.sink, h.ok.clear⟩

theorem inv_step {a : Action} (h : Inv M type eh w) (hstep : step M type eh w a = some w') :
    Inv M type eh w' := by
  cases a with
  | asycConnect s aTimeout =>
    obtain ⟨hclosed, ⟨rfl⟩⟩ := Option.ite_none_right_eq_some.mp hstep
    exact h.asycConnect hclosed s aTimeout
  | cancelConnect =>
    cases hstep
    exact h.cancelConnect
  | output fd =>
    obtain ⟨hbound, ⟨rfl⟩⟩ := Option.ite_none_right_eq_some.mp hstep
    exact h.indicate (h.open_of_bound hbound) .ok
  | close fd =>
    obtain ⟨hbound, ⟨rfl⟩⟩ := Option.ite_none_right_eq_some.mp hstep
    exact h.onClose hbound
  | timer t =>
    obtain ⟨ht, ⟨rfl⟩⟩ := Option.ite_none_right_eq_some.mp hstep
    exact h.onTimeout ht
  | other o =>
    obtain ⟨ho, ⟨rfl⟩⟩ := Option.ite_none_right_eq_some.mp hstep
    exact h.other ho

/-- **Every attempt is reported at most once**, not after it was cancelled, and the wrapper can then
be used again: until the next attempt nothing is left of the last one. -/
theorem connectOk (M : Masks) (type : CType) (eh : ℕ) (w : World)
    (h : Reachable (step M type eh) init w) :
    ConnectOk eh w ∧ (w.closed = true → Clear eh w.left) := by
  have hinv : Inv M type eh w :=
    Reach.induct (I := Inv M type eh) h (inv_init M type eh) fun _ _ _ hi _ hs => inv_step hi hs
  exact ⟨hinv.ok, hinv.clear⟩

/-- A socket that is opened and registered, and what its `connect()` returns. -/
def meets (fd : ℤ) (connect : Connected) : Script :=
  ⟨true, ⟨some fd, true, true, true⟩, true, connect, 0, true⟩

/-- One attempt succeeds, one fails when it is already registered, and one is cancelled. -/
def threeAttempts : List Action :=
  [.asycConnect (meets 5 .inProgress) true, .output 5, .asycConnect (meets 6 .error) true,
    .timer .error, .asycConnect (meets 7 .inProgress) true, .cancelConnect]

theorem connectOk_threeAttempts :
    ∃ w, exec (step Handlers.oneBitMasks .tcp 0) init threeAttempts = some w ∧
      (∃ l l', w.log = [.indicate (some 0) .ok l, .indicate (some 1) .networkConnectError l',
        .cancel 3]) ∧
      ConnectOk 0 w ∧ (w.closed = true → Clear 0 w.left) :=
  ⟨_, rfl, ⟨_, _, rfl⟩,
    connectOk Handlers.oneBitMasks .tcp 0 _ (reachable_of_exec threeAttempts rfl)⟩

end VosStack.Wrapper
