import VosStack.Transport.Tcp
import VosStack.Reactor.Listen

/-!
# The descriptor of a TCP transport

A `CFSTransportTcp` is created with a descriptor. It closes it in an `OpenWithSink` that fails, in
`OnClose`, or in its destructor, and unbinds it in `Disconnect`; the reactor unbinds it before
`OnClose`. The sink's callbacks call the transport again.

So **the descriptor is closed once**, not while it is bound to the transport, and not used after
that, provided that the transport is destroyed only when it has not been opened since its last
`Disconnect`, `OnClose` or failed open. There are two reasons. `Close` sets the handle to `-1`, and
a transport without a handle cannot be opened. And a transport without a sink is not bound: all that
drops the sink unbinds first, and only an open binds.

The transport's functions run up to the callback they make. Calls that have not returned are on a
stack, so that callbacks nest in any way; when a callback of `OnEpollInput` returns, its loop goes
on. This is also so for a call that is still on the stack when the destructor runs. What the reactor
calls, and when, is left open, except that it has unbound the descriptor before `OnClose`; so is
what a socket returns. An `OpenWithSink` with `NULL` is refused by an assertion, and is not an
attempt to open.
-/

namespace VosStack.Descriptor

open Handlers (Masks Other Among isBound_iff)
open Listen (closeSocket registerHandler)
open Transition

/-! ### The state -/

/-- A call that waits for its callback. -/
inductive Frame
  /-- `OnEpollInput`, in `OnReceive` -/
  | input
  /-- `OnTimer`, in `OnReceive` -/
  | timer
  /-- `OnOutput`, in `OnSend` -/
  | output
  /-- `OnClose`, in `OnDisconnect` -/
  | close
  deriving DecidableEq, Repr

/-- Ghost: what the transport does with descriptors, in order. -/
inductive Entry
  /-- a socket call, or one of the reactor's functions -/
  | call (fd : ℤ)
  /-- `vos_sock_close`, and whether the descriptor is bound to the transport -/
  | close (fd : ℤ) (bound : Bool)
  deriving DecidableEq, Repr

structure World where
  reactor : Handlers.World
  tcp : CFSTransportTcp
  stack : List Frame
  /-- ghost: opened, and then neither disconnected nor closed -/
  opened : Bool
  destroyed : Bool
  /-- ghost -/
  log : List Entry

/-- A new transport, and its descriptor. -/
def init (handle : Option ℕ) : World :=
  ⟨Handlers.init, ⟨handle, false, false, false⟩, [], false, false, []⟩

variable (M : Masks) (eh : ℕ)

namespace World

/-- `GetHandle`. -/
def getHandle (w : World) : ℤ :=
  match w.tcp.handle with
  | none => -1
  | some fd => fd

/-- A call on the transport's socket, or with its handle. -/
def call (w : World) : World := { w with log := w.log ++ [.call w.getHandle] }

/-! ### Open and close -/

def close_t (w : World) : World :=
  match w.tcp.handle with
  | none => { w with tcp := w.tcp.close_t }
  | some fd =>
    { w with
      reactor := closeSocket w.reactor fd
      tcp := w.tcp.close_t
      log := w.log ++ [.close fd (w.reactor.isBound eh fd)] }

/-- `Open_t`; `epollCtl` says whether `epoll_ctl` succeeds. -/
def open_t (w : World) (epollCtl : Bool) : World × CAWResult :=
  -- `SetOption` of two options, `GetLocalAddr` and `GetRemoteAddr`
  let w := w.call.call.call.call
  match w.tcp.handle with
  | none => (w, .failure)
  | some fd =>
    let w := w.call
    let (reactor, rv) :=
      registerHandler M w.reactor eh fd (M.read ||| M.write) ⟨none, true, true, epollCtl⟩
    let w := { w with reactor }
    if rv.failed ∧ rv ≠ .found then (w, rv) else (w, .ok)

/-- `CFSTransportBase::OpenWithSink`. -/
def openWithSink (w : World) (aSink epollCtl : Bool) : World :=
  if !aSink then w
  else if w.tcp.sink then { w with opened := true }
  else
    let w := { w with tcp := { w.tcp with sink := true } }
    let (w, rv) := w.open_t M eh epollCtl
    if rv.failed then
      let w := w.close_t eh
      { w with tcp := { w.tcp with sink := false }, opened := false }
    else { w with opened := true }

/-- `CFSTransportBase::Disconnect`. -/
def disconnect (w : World) : World :=
  let w := w.call
  { w with
    reactor := (w.reactor.removeHandler M eh w.getHandle (M.read ||| M.write)).1
    tcp := w.tcp.disconnect
    opened := false }

/-- `CFSTransportBase::OnClose`. -/
def onClose (w : World) : World :=
  if !w.tcp.sink then { w with opened := false }
  else
    let w := w.close_t eh
    { w with tcp := { w.tcp with sink := false }, opened := false, stack := .close :: w.stack }

/-- `~CFSTransportTcp`. -/
def destroy (w : World) : World := { w.close_t eh with destroyed := true }

/-! ### Data -/

/-- One entry of the log stands for all `SendV` of the loop. -/
def sendData (w : World) (script : List SendOutcome) (aData : Bytes) : World :=
  if w.tcp.handle = none ∨ aData = [] then w
  else { w.call with tcp := (w.tcp.sendData script aData).1 }

def recv_i (w : World) (r : RecvOutcome) (aNeedTimerRereceive : Bool) : World :=
  let w := w.call
  match r with
  | .wouldBlock available =>
    if aNeedTimerRereceive then
      -- `Control(FIONREAD)`
      let w := w.call
      { w with tcp := { w.tcp with rereceive := w.tcp.rereceive || available } }
    else w
  | _ => w

/-- `OnEpollInput` up to its next callback; what comes after the script would block. -/
def onEpollInput (w : World) : List RecvOutcome → World
  | [] => w.recv_i (.wouldBlock false) true
  | .data b bs :: rs =>
    let w := w.recv_i (.data b bs) true
    if w.tcp.sink then { w with stack := .input :: w.stack } else onEpollInput w rs
  | r :: _ => w.recv_i r true

def onTimer (w : World) (r : RecvOutcome) : World :=
  let w := { w with tcp := { w.tcp with rereceive := false } }
  let w := w.recv_i r false
  match r with
  | .data _ _ => if w.tcp.sink then { w with stack := .timer :: w.stack } else w
  | _ => w

def onOutput (w : World) : World :=
  if !w.tcp.needOnSend then w
  else
    let w := { w with tcp := w.tcp.disarm }
    if w.tcp.sink then { w with stack := .output :: w.stack } else w

/-- The innermost callback returns. -/
def resume (w : World) (stack : List Frame) (rs : List RecvOutcome) : Frame → World
  | .input => { w with stack }.onEpollInput rs
  | _ => { w with stack }

end World

/-! ### The system -/

inductive Action
  | openWithSink (aSink epollCtl : Bool)
  | disconnect
  | sendData (script : List SendOutcome) (aData : Bytes)
  /-- `GetOption` or `SetOption`, of an option of the socket -/
  | option
  | onInput (rs : List RecvOutcome)
  | onOutput
  | onTimer (r : RecvOutcome)
  /-- the reactor ends the binding and calls `OnClose` -/
  | close (fd : ℤ)
  /-- a callback returns -/
  | resume (rs : List RecvOutcome)
  | destroy
  deriving DecidableEq, Repr

/-- All that goes on after the destructor. -/
def Action.isResume : Action → Bool
  | .resume _ => true
  | _ => false

/-- A step of the transport. -/
def act (w : World) : Action → Option World
  | .openWithSink aSink epollCtl => some (w.openWithSink M eh aSink epollCtl)
  | .disconnect => some (w.disconnect M eh)
  | .sendData script aData => some (w.sendData script aData)
  | .option => some w.call
  | .onInput rs => some (w.onEpollInput rs)
  | .onOutput => some w.onOutput
  | .onTimer r => if w.tcp.rereceive then some (w.onTimer r) else none
  | .close fd =>
    if w.reactor.isBound eh fd then
      let w := { w with reactor := (w.reactor.unBind fd).onHandleRemoved fd }
      some (w.onClose eh)
    else none
  | .resume rs =>
    match w.stack with
    | [] => none
    | f :: stack => some (w.resume stack rs f)
  | .destroy => if w.opened then none else some (w.destroy eh)

/-- A step of the transport, or of other handlers. -/
def step (w : World) : Action ⊕ Other → Option World
  | .inl a => if w.destroyed && !a.isResume then none else act M eh w a
  | .inr o => if o.Apart eh then some { w with reactor := w.reactor.other M o } else none

/-! ### The contract -/

/-- Nothing is done with a descriptor after it was closed. -/
def Entry.Before : Entry → Entry → Prop
  | .close fd _, .close fd' _ => fd' ≠ fd
  | .close fd _, .call fd' => fd' ≠ fd
  | .call _, _ => True

def Entry.isClose : Entry → Bool
  | .call _ => false
  | .close _ _ => true

/-- The life of a transport that was created with that descriptor. -/
structure LifeOk (handle : Option ℕ) (w : World) : Prop where
  order : w.log.Pairwise Entry.Before
  unbound : ∀ (fd : ℤ) (bound : Bool), .close fd bound ∈ w.log →
    (∃ n : ℕ, handle = some n ∧ fd = n) ∧ bound = false
  once : w.destroyed = true → ∀ n, handle = some n → w.log.filter Entry.isClose = [.close n false]

/-! ### The log -/

/-- What a log says about the handle. -/
structure Logged (handle now : Option ℕ) (log : List Entry) : Prop where
  order : log.Pairwise Entry.Before
  closes : now = handle ∧ log.filter Entry.isClose = [] ∨
    now = none ∧ ∃ n : ℕ, handle = some n ∧ log.filter Entry.isClose = [.close n false]

section logged

variable {handle now : Option ℕ} {log : List Entry}

/-- What has been closed is not the handle any more. -/
theorem Logged.of_close (h : Logged handle now log) {fd : ℤ} {bound : Bool}
    (hmem : .close fd bound ∈ log) :
    now = none ∧ (∃ n : ℕ, handle = some n ∧ fd = n) ∧ bound = false := by
  have hfilter : Entry.close fd bound ∈ log.filter Entry.isClose := List.mem_filter.mpr ⟨hmem, rfl⟩
  rcases h.closes with ⟨-, hnil⟩ | ⟨hnow, n, hn, hone⟩
  · rw [hnil] at hfilter
    exact absurd hfilter List.not_mem_nil
  · rw [hone] at hfilter
    cases List.mem_singleton.mp hfilter
    exact ⟨hnow, ⟨n, hn, rfl⟩, rfl⟩

/-- A call with the handle, or with `-1`. -/
theorem Logged.call (h : Logged handle now log) {fd : ℤ} (hfd : now = none → fd = -1) :
    Logged handle now (log ++ [.call fd]) := by
  have hfilter : (log ++ [Entry.call fd]).filter Entry.isClose = log.filter Entry.isClose := by
    rw [List.filter_append]
    exact List.append_nil _
  refine ⟨pairwise_snoc h.order fun e he => ?_, ?_⟩
  · cases e with
    | call => trivial
    | close fd' bound =>
      obtain ⟨hnow, ⟨n, -, rfl⟩, -⟩ := h.of_close he
      have hminus := hfd hnow
      change fd ≠ n
      omega
  · rw [hfilter]
    exact h.closes

theorem Logged.close {n : ℕ} (h : Logged handle (some n) log) :
    Logged handle none (log ++ [.close n false]) := by
  rcases h.closes with ⟨hnow, hnil⟩ | ⟨hnow, -⟩
  · refine ⟨pairwise_snoc h.order fun e he => ?_, .inr ⟨rfl, n, hnow.symm, ?_⟩⟩
    · cases e with
      | call => trivial
      | close fd bound =>
        have hgone := (h.of_close he).1
        contradiction
    · rw [List.filter_append, hnil]
      rfl
  · contradiction

end logged

/-! ### The bindings -/

/-- Only the handle of a transport that has a sink is bound to it, and `Disconnect` removes all its
events. -/
def Bound (r : Handlers.World) (t : CFSTransportTcp) : Prop :=
  ∀ fd ele, r.repository fd = some ele → ele.eh = eh →
    t.sink = true ∧ (∃ n : ℕ, t.handle = some n ∧ fd = n) ∧
      Among ele.mask ((M.read ||| M.write) &&& M.allEvents)

structure Inv (handle : Option ℕ) (w : World) : Prop where
  logged : Logged handle w.tcp.handle w.log
  bound : Bound M eh w.reactor w.tcp
  opened : w.tcp.sink = true → w.opened = true
  destroyed : w.destroyed = true → w.tcp.handle = none

theorem inv_init (handle : Option ℕ) : Inv M eh handle (init handle) where
  logged := ⟨.nil, .inl ⟨rfl, rfl⟩⟩
  bound _ _ h := absurd h (Option.some_ne_none _).symm
  opened h := nomatch h
  destroyed h := nomatch h

variable {M eh} {handle : Option ℕ} {w w' : World}

theorem getHandle_of_none (h : w.tcp.handle = none) : w.getHandle = -1 := by
  rw [World.getHandle, h]

theorem getHandle_of_some {n : ℕ} (h : w.tcp.handle = some n) : w.getHandle = n := by
  rw [World.getHandle, h]

/-! ### Calls -/

theorem call_tcp (w : World) : w.call.tcp = w.tcp := rfl

theorem call_reactor (w : World) : w.call.reactor = w.reactor := rfl

theorem call_destroyed (w : World) : w.call.destroyed = w.destroyed := rfl

theorem logged_call (h : Logged handle w.tcp.handle w.log) :
    Logged handle w.call.tcp.handle w.call.log := h.call getHandle_of_none

theorem Inv.call (h : Inv M eh handle w) : Inv M eh handle w.call where
  logged := logged_call h.logged
  bound := h.bound
  opened := h.opened
  destroyed := h.destroyed

theorem Inv.sendData (h : Inv M eh handle w) (script : List SendOutcome) (aData : Bytes) :
    Inv M eh handle (w.sendData script aData) := by
  rw [World.sendData]
  split
  · exact h
  · obtain ⟨logged, bound, opened, destroyed⟩ := h.call
    have hhandle := w.tcp.sendData_handle script aData
    have hsink := w.tcp.sendData_sink script aData
    refine ⟨?_, fun fd ele hele heh => ?_, fun hs => ?_, fun hd => ?_⟩
    · dsimp only
      rw [hhandle]
      exact logged
    · dsimp only
      rw [hhandle, hsink]
      exact bound fd ele hele heh
    · exact opened (hsink.symm.trans hs)
    · exact hhandle.trans (destroyed hd)

theorem Inv.recv_i (h : Inv M eh handle w) (r : RecvOutcome) (need : Bool) :
    Inv M eh handle (w.recv_i r need) := by
  unfold World.recv_i
  split
  · split
    · obtain ⟨logged, bound, opened, destroyed⟩ := h.call.call
      exact ⟨logged, bound, opened, destroyed⟩
    · exact h.call
  · exact h.call

theorem Inv.onEpollInput (h : Inv M eh handle w) (rs : List RecvOutcome) :
    Inv M eh handle (w.onEpollInput rs) := by
  induction rs generalizing w with
  | nil => exact h.recv_i (.wouldBlock false) true
  | cons r rs ih =>
    have hrecv := h.recv_i r true
    cases r with
    | data b bs =>
      rw [World.onEpollInput]
      split
      · exact ⟨hrecv.logged, hrecv.bound, hrecv.opened, hrecv.destroyed⟩
      · -- without a sink the loop goes on
        exact ih hrecv
    | wouldBlock available => exact hrecv
    | closed => exact hrecv

theorem Inv.onTimer (h : Inv M eh handle w) (r : RecvOutcome) :
    Inv M eh handle (w.onTimer r) := by
  have hcancel : Inv M eh handle { w with tcp := { w.tcp with rereceive := false } } :=
    ⟨h.logged, h.bound, h.opened, h.destroyed⟩
  have hrecv := hcancel.recv_i r false
  unfold World.onTimer
  split
  · dsimp only
    split
    · exact ⟨hrecv.logged, hrecv.bound, hrecv.opened, hrecv.destroyed⟩
    · exact hrecv
  · exact hrecv

theorem Inv.onOutput (h : Inv M eh handle w) : Inv M eh handle w.onOutput := by
  rw [World.onOutput]
  split
  · exact h
  · dsimp only
    split
    · exact ⟨h.logged, h.bound, h.opened, h.destroyed⟩
    · exact ⟨h.logged, h.bound, h.opened, h.destroyed⟩

theorem Inv.resume (h : Inv M eh handle w) (stack : List Frame) (rs : List RecvOutcome)
    (f : Frame) : Inv M eh handle (w.resume stack rs f) := by
  have hinv : Inv M eh handle { w with stack } := ⟨h.logged, h.bound, h.opened, h.destroyed⟩
  cases f with
  | input => exact hinv.onEpollInput rs
  | timer => exact hinv
  | output => exact hinv
  | close => exact hinv

/-! ### Open and close -/

theorem bound_of_free {r : Handlers.World} (h : r.Free eh) (t : CFSTransportTcp) : Bound M eh r t :=
  fun fd ele hele heh => absurd heh (h fd ele hele)

theorem Inv.free (h : Inv M eh handle w) (hsink : w.tcp.sink = false) : w.reactor.Free eh := by
  intro fd ele hele heh
  have htrue := (h.bound fd ele hele heh).1
  rw [hsink] at htrue
  contradiction

/-- `Close_t` of a transport that is not bound. -/
theorem close_t_spec (hlog : Logged handle w.tcp.handle w.log) (hfree : w.reactor.Free eh) :
    Logged handle none (w.close_t eh).log ∧ (w.close_t eh).reactor.Free eh ∧
      (w.close_t eh).tcp = w.tcp.close_t ∧ (w.close_t eh).destroyed = w.destroyed := by
  rw [World.close_t]
  split
  · next hnone =>
    rw [hnone] at hlog
    exact ⟨hlog, hfree, rfl, rfl⟩
  · next n hn =>
    rw [hn] at hlog
    refine ⟨?_, hfree, rfl, rfl⟩
    dsimp only
    rw [hfree.isBound n]
    exact hlog.close

/-- A transport that is closed and has no sink. -/
theorem inv_of_closed (hlog : Logged handle none w.log) (hfree : w.reactor.Free eh)
    (hhandle : w.tcp.handle = none) (hsink : w.tcp.sink = false) : Inv M eh handle w where
  logged := by
    rw [hhandle]
    exact hlog
  bound := bound_of_free hfree w.tcp
  opened htrue := by
    rw [hsink] at htrue
    contradiction
  destroyed _ := hhandle

theorem Inv.disconnect (h : Inv M eh handle w) : Inv M eh handle (w.disconnect M eh) := by
  have hcall := h.call
  have hfree : (w.disconnect M eh).reactor.Free eh := by
    refine (Handlers.removed_removeHandler M w.reactor eh w.getHandle (M.read ||| M.write)).free ?_
    intro fd ele hele heh
    obtain ⟨-, ⟨n, hn, rfl⟩, hall⟩ := h.bound fd ele hele heh
    exact ⟨(getHandle_of_some hn).symm, hall⟩
  exact ⟨hcall.logged, bound_of_free hfree _, fun hsink => absurd hsink Bool.false_ne_true,
    hcall.destroyed⟩

/-- The reactor has ended the binding when it calls `OnClose`. -/
theorem Inv.onClose {fd : ℤ} (h : Inv M eh handle w) (hbound : w.reactor.isBound eh fd = true) :
    Inv M eh handle
      (World.onClose eh { w with reactor := (w.reactor.unBind fd).onHandleRemoved fd }) := by
  obtain ⟨ele, hele, heh⟩ := isBound_iff.mp hbound
  obtain ⟨hsink, ⟨n, hn, rfl⟩, -⟩ := h.bound fd ele hele heh
  have hfree : ((w.reactor.unBind n).onHandleRemoved n).Free eh := by
    intro fd' ele' hele' heh'
    rcases Table.update_cases hele' with ⟨-, hnone⟩ | ⟨hne, hele'⟩
    · contradiction
    · obtain ⟨-, ⟨n', hn', rfl⟩, -⟩ := h.bound fd' ele' hele' heh'
      rw [hn] at hn'
      cases hn'
      exact hne rfl
  obtain ⟨hlog, hfree', htcp, -⟩ := close_t_spec (w := { w with
    reactor := (w.reactor.unBind n).onHandleRemoved n }) h.logged hfree
  rw [World.onClose]
  dsimp only
  rw [hsink]
  refine inv_of_closed hlog hfree' ?_ rfl
  rw [htcp]
  rfl

theorem Inv.destroy (h : Inv M eh handle w) (hopened : w.opened = false) :
    Inv M eh handle (w.destroy eh) := by
  have hsink : w.tcp.sink = false := by
    refine eq_false_of_ne_true fun hsink => ?_
    have htrue := h.opened hsink
    rw [hopened] at htrue
    contradiction
  obtain ⟨hlog, hfree, htcp, -⟩ := close_t_spec h.logged (h.free hsink)
  refine inv_of_closed hlog hfree ?_ ?_
  · rw [World.destroy, htcp]
    rfl
  · rw [World.destroy, htcp]
    exact hsink

/-- `RegisterHandler` in `Open_t` binds the handle, or it fails and binds nothing. -/
theorem register_spec {r : Handlers.World} {t : CFSTransportTcp} {n : ℕ} (s : Listen.Attempt)
    (hfree : r.Free eh) (hsink : t.sink = true) (hn : t.handle = some n) :
    Bound M eh (registerHandler M r eh n (M.read ||| M.write) s).1 t ∧
      ((registerHandler M r eh n (M.read ||| M.write) s).2.failed = true →
        (registerHandler M r eh n (M.read ||| M.write) s).2 ≠ .found →
        (registerHandler M r eh n (M.read ||| M.write) s).1.Free eh) := by
  have hregistered := Listen.registered_attempt M r eh n (M.read ||| M.write) s
  constructor
  · intro fd ele hele heh
    obtain ⟨rfl, hall⟩ := hregistered.of_free hfree hele heh
    exact ⟨hsink, ⟨n, hn, rfl⟩, hall⟩
  · intro hfailed hfound
    cases hregistered with
    | same hsame =>
      rw [hsame]
      exact hfree
    | bound _ _ _ _ hrv =>
      rcases hrv with hrv | hrv
      · exact absurd hrv (CAWResult.failed_iff.mp hfailed)
      · exact absurd hrv hfound

/-- What `Open_t` leaves: a transport that is open, or one that is not bound. -/
theorem open_t_spec (epollCtl : Bool) (hlog : Logged handle w.tcp.handle w.log)
    (hfree : w.reactor.Free eh) (hsink : w.tcp.sink = true) :
    Logged handle w.tcp.handle (w.open_t M eh epollCtl).1.log ∧
      (w.open_t M eh epollCtl).1.tcp = w.tcp ∧
      (w.open_t M eh epollCtl).1.destroyed = w.destroyed ∧
      Bound M eh (w.open_t M eh epollCtl).1.reactor w.tcp ∧
      ((w.open_t M eh epollCtl).2.failed = true → (w.open_t M eh epollCtl).1.reactor.Free eh) := by
  have hcalls := logged_call (logged_call (logged_call (logged_call hlog)))
  have htcp : w.call.call.call.call.tcp = w.tcp := by simp only [call_tcp]
  have hreactor : w.call.call.call.call.reactor = w.reactor := by simp only [call_reactor]
  have hdestroyed : w.call.call.call.call.destroyed = w.destroyed := by simp only [call_destroyed]
  unfold World.open_t
  generalize w.call.call.call.call = w₁ at hcalls htcp hreactor hdestroyed
  rw [← hreactor] at hfree
  rw [← htcp] at hsink ⊢
  dsimp only
  split
  · exact ⟨hcalls, rfl, hdestroyed, bound_of_free hfree w₁.tcp, fun _ => hfree⟩
  · next n hn =>
    obtain ⟨hbound, hunbound⟩ :=
      register_spec (M := M) ⟨none, true, true, epollCtl⟩ hfree hsink hn
    split
    · next hfailed =>
      exact ⟨logged_call hcalls, rfl, hdestroyed, hbound, fun hf => hunbound hf hfailed.2⟩
    · exact ⟨logged_call hcalls, rfl, hdestroyed, hbound, fun hf => absurd hf Bool.false_ne_true⟩

theorem Inv.openWithSink (h : Inv M eh handle w) (aSink epollCtl : Bool) :
    Inv M eh handle (w.openWithSink M eh aSink epollCtl) := by
  rw [World.openWithSink]
  split
  · exact h
  split
  · exact ⟨h.logged, h.bound, fun _ => rfl, h.destroyed⟩
  · next hnull =>
    have hfree := h.free (eq_false_of_ne_true hnull)
    obtain ⟨hlog, htcp, hdestroyed, hbound, hunbound⟩ :=
      open_t_spec (M := M) (w := { w with tcp := { w.tcp with sink := true } }) epollCtl
        h.logged hfree rfl
    dsimp only
    split
    · next hfailed =>
      obtain ⟨hlog', hfree', htcp', -⟩ := close_t_spec (w := (World.open_t M eh
        { w with tcp := { w.tcp with sink := true } } epollCtl).1) (by rw [htcp]; exact hlog)
        (hunbound hfailed)
      refine inv_of_closed hlog' hfree' ?_ rfl
      rw [htcp']
      rfl
    · refine ⟨?_, ?_, fun _ => rfl, fun hd => ?_⟩
      · rw [htcp]
        exact hlog
      · rw [htcp]
        exact hbound
      · rw [htcp]
        exact h.destroyed (hdestroyed.symm.trans hd)

/-! ### The run -/

theorem Inv.other {o : Other} (h : Inv M eh handle w) (ho : o.Apart eh) :
    Inv M eh handle { w with reactor := w.reactor.other M o } := by
  refine ⟨h.logged, fun fd ele' hele' heh => ?_, h.opened, h.destroyed⟩
  obtain ⟨ele, hele, hsame, hsub⟩ := Handlers.other_within ho hele' heh
  obtain ⟨hsink, hhandle, hall⟩ := h.bound fd ele hele (hsame.trans heh)
  exact ⟨hsink, hhandle, hsub _ hall⟩

theorem Inv.act {a : Action} (h : Inv M eh handle w) (hact : act M eh w a = some w') :
    Inv M eh handle w' := by
  cases a with
  | openWithSink aSink epollCtl =>
    cases hact
    exact h.openWithSink aSink epollCtl
  | disconnect =>
    cases hact
    exact h.disconnect
  | sendData script aData =>
    cases hact
    exact h.sendData script aData
  | option =>
    cases hact
    exact h.call
  | onInput rs =>
    cases hact
    exact h.onEpollInput rs
  | onOutput =>
    cases hact
    exact h.onOutput
  | onTimer r =>
    obtain ⟨-, ⟨rfl⟩⟩ := Option.ite_none_right_eq_some.mp hact
    exact h.onTimer r
  | close fd =>
    obtain ⟨hbound, ⟨rfl⟩⟩ := Option.ite_none_right_eq_some.mp hact
    exact h.onClose hbound
  | resume rs =>
    rw [Descriptor.act] at hact
    split at hact
    · contradiction
    · next f stack _ =>
      cases hact
      exact h.resume stack rs f
  | destroy =>
    obtain ⟨hopened, ⟨rfl⟩⟩ := Option.ite_none_left_eq_some.mp hact
    exact h.destroy (eq_false_of_ne_true hopened)

theorem inv_step {a : Action ⊕ Other} (h : Inv M eh handle w) (hstep : step M eh w a = some w') :
    Inv M eh handle w' := by
  cases a with
  | inl a =>
    obtain ⟨-, hact⟩ := Option.ite_none_left_eq_some.mp hstep
    exact h.act hact
  | inr o =>
    obtain ⟨ho, ⟨rfl⟩⟩ := Option.ite_none_right_eq_some.mp hstep
    exact h.other ho

theorem Inv.contract (h : Inv M eh handle w) : LifeOk handle w where
  order := h.logged.order
  unbound _ _ hmem := (h.logged.of_close hmem).2
  once hd n hn := by
    rcases h.logged.closes with ⟨hnow, -⟩ | ⟨-, n', hn', hone⟩
    · have hnone := h.destroyed hd
      rw [hnow, hn] at hnone
      contradiction
    · rw [hn] at hn'
      cases hn'
      exact hone

/-- **The descriptor is closed once**, unbound, and not used after that. -/
theorem lifeOk (M : Masks) (eh : ℕ) (handle : Option ℕ) (w : World)
    (h : Reachable (step M eh) (init handle) w) : LifeOk handle w := by
  have hinv : Inv M eh handle w := Reach.induct (I := Inv M eh handle) h (inv_init M eh handle)
    fun _ _ _ hi _ hs => inv_step hi hs
  exact hinv.contract

/-- In `OnReceive` the sink disconnects, and the next open fails; the loop goes on with `-1`. -/
def reopened : List (Action ⊕ Other) :=
  [.inr (.openFd 5), .inl (.openWithSink true true), .inl (.onInput [.data 0 []]),
    .inl .disconnect, .inl (.openWithSink true false), .inl (.resume [.closed]), .inl .destroy]

theorem lifeOk_reopened :
    ∃ w, exec (step Handlers.oneBitMasks 0) (init (some 5)) reopened = some w ∧
      w.destroyed = true ∧ w.log.getLast? = some (.call (-1)) ∧ LifeOk (some 5) w :=
  ⟨_, rfl, rfl, rfl, lifeOk Handlers.oneBitMasks 0 (some 5) _ (reachable_of_exec reopened rfl)⟩

end VosStack.Descriptor
