import VosStack.Reactor.Repository
import VosStack.Udp.Transport

/-!
# A failing `StartListen`

Both acceptors open a socket, bind it, and register themselves with the reactor; the TCP acceptor
calls `listen()` in between. When a step fails they call `StopListen`, which should take back what
was done before.

`CFSAcceptorTcp::StopListen` does: the binding is removed, the socket closed and the sink dropped.
`CFSAcceptorUdp::StopListen` **returns at once** while its stop flag is set, and the flag is cleared
only by the last line of a `StartListen` that succeeds. So a failing `StartListen` of a UDP acceptor
takes nothing back. Its sink stays; after a failing registration its socket stays open as well, and
every later `StartListen` is refused as a second one.

The kernel's answers are inputs. `RegisterHandler` and `RemoveHandler` are those of
`Reactor.Handlers`; besides, `epoll_ctl` may fail for reasons that are not in that state. A
descriptor of an earlier socket may still be bound to another handler, and `RegisterHandler` then
binds the acceptor and reports `CAW_ERROR_FOUND`, which is a failure.
-/

namespace VosStack.Listen

open Handlers

/-! ### Sockets -/

/-- What a `StartListen` meets. -/
structure Attempt where
  /-- the descriptor of a new socket, none if there is none -/
  socket : Option ℤ
  bind : Bool
  listen : Bool
  epollCtl : Bool
  deriving DecidableEq, Repr

/-- `CFSSocketBase::Open`, with the handle after it. A new descriptor is one that is not open. -/
def openSocket (w : Handlers.World) (s : Attempt) : Handlers.World × ℤ :=
  match s.socket with
  | none => (w, -1)
  | some fd =>
    if fd < 0 ∨ w.isOpen fd then (w, -1)
    else ({ w with isOpen := Function.update w.isOpen fd true }, fd)

/-- `CFSSocketBase::Close` of an open descriptor. -/
def closeSocket (w : Handlers.World) (fd : ℤ) : Handlers.World :=
  { w.onHandleRemoved fd with isOpen := Function.update w.isOpen fd false }

/-- `RegisterHandler`. -/
def registerHandler (M : Masks) (w : Handlers.World) (aEh : ℕ) (fd : ℤ) (aMask : MASK)
    (s : Attempt) : Handlers.World × CAWResult :=
  let (w', rv) := w.registerHandler M aEh fd aMask
  -- `epoll_ctl` is called for a descriptor that is not bound
  if rv = .ok ∧ w.repository fd = none ∧ s.epollCtl = false then (w, .failure) else (w', rv)

/-! ### The TCP acceptor -/

structure CFSAcceptorTcp where
  /-- the acceptor as a handler -/
  eh : ℕ
  /-- `m_Socket.GetHandle()` -/
  handle : ℤ
  /-- `m_pSink` -/
  sink : Option ℕ
  deriving DecidableEq, Repr

namespace CFSAcceptorTcp

def stopListen (M : Masks) (w : Handlers.World) (a : CFSAcceptorTcp) :
    Handlers.World × CFSAcceptorTcp :=
  if a.handle ≠ -1 then
    let w := (w.removeHandler M a.eh a.handle M.accept).1
    (closeSocket w a.handle, { a with handle := -1, sink := none })
  else (w, { a with sink := none })

/-- The label `fail`. -/
def fail (M : Masks) (w : Handlers.World) (a : CFSAcceptorTcp) (rv : CAWResult) :
    Handlers.World × CFSAcceptorTcp × CAWResult :=
  let (w, a) := a.stopListen M w
  (w, a, rv)

def startListen (M : Masks) (w : Handlers.World) (a : CFSAcceptorTcp) (aSink : Option ℕ)
    (s : Attempt) : Handlers.World × CFSAcceptorTcp × CAWResult :=
  if a.handle ≠ -1 then (w, a, .alreadyInitialized)
  else if aSink = none then (w, a, .invalidArg)
  else
    let a := { a with sink := aSink }
    let (w, fd) := openSocket w s
    let a := { a with handle := fd }
    if fd = -1 then a.fail M w .networkSocketError
    else if !s.bind then a.fail M w .networkSocketError
    else if !s.listen then a.fail M w .networkSocketError
    else
      let (w, rv) := registerHandler M w a.eh fd M.accept s
      if rv.failed then a.fail M w rv else (w, a, .ok)

end CFSAcceptorTcp

/-! ### The UDP acceptor -/

structure CFSAcceptorUdp where
  /-- the acceptor as a handler -/
  eh : ℕ
  /-- `m_Socket.GetHandle()` -/
  handle : ℤ
  /-- `m_pSink` -/
  sink : Option ℕ
  /-- `m_AddrLocol` -/
  addrLocol : Option Udp.InetAddr
  /-- the flag of `CAWStopFlag`: set until `SetStartFlag` -/
  stopped : Bool
  deriving DecidableEq, Repr

namespace CFSAcceptorUdp

/-- `StopListen`; the entries of the session table are not part of this state. -/
def stopListen (M : Masks) (w : Handlers.World) (a : CFSAcceptorUdp) :
    Handlers.World × CFSAcceptorUdp :=
  if a.stopped then (w, a)
  else if a.handle ≠ -1 then
    let w := (w.removeHandler M a.eh a.handle M.read).1
    (closeSocket w a.handle, { a with handle := -1, sink := none, stopped := true })
  else (w, { a with sink := none, stopped := true })

/-- The label `fail`. -/
def fail (M : Masks) (w : Handlers.World) (a : CFSAcceptorUdp) (rv : CAWResult) :
    Handlers.World × CFSAcceptorUdp × CAWResult :=
  let (w, a) := a.stopListen M w
  (w, a, rv)

/-- `CFSSocketUdp::Open`: a socket that cannot be bound is closed again. -/
def openBound (w : Handlers.World) (s : Attempt) : Handlers.World × ℤ :=
  let (w, fd) := openSocket w s
  if fd = -1 then (w, -1)
  else if !s.bind then (closeSocket w fd, -1)
  else (w, fd)

def startListen (M : Masks) (w : Handlers.World) (a : CFSAcceptorUdp) (aSink : Option ℕ)
    (aAddrListen : Udp.InetAddr) (s : Attempt) : Handlers.World × CFSAcceptorUdp × CAWResult :=
  if a.handle ≠ -1 then (w, a, .alreadyInitialized)
  else if aSink = none then (w, a, .invalidArg)
  else
    let a := { a with sink := aSink }
    let (w, fd) := openBound w s
    let a := { a with handle := fd }
    if fd = -1 then a.fail M w .networkSocketError
    else
      -- the results of the two `SetOption` calls are only asserted
      let (w, rv) := registerHandler M w a.eh fd M.read s
      if rv.failed then a.fail M w rv
      else (w, { a with addrLocol := some aAddrListen, stopped := false }, .ok)

end CFSAcceptorUdp

/-! ### The contract -/

/-- The acceptor has no socket, no sink, and no binding that it did not have in `w`. -/
structure Restored (w w' : Handlers.World) (eh : ℕ) (handle : ℤ) (sink : Option ℕ) : Prop where
  handle : handle = -1
  sink : sink = none
  closed : w'.isOpen = w.isOpen
  unbound : ∀ fd ele', w'.repository fd = some ele' → ele'.eh = eh →
    ∃ ele, w.repository fd = some ele ∧ ele.eh = eh

inductive Acceptor
  | tcp (a : CFSAcceptorTcp)
  | udp (a : CFSAcceptorUdp)
  deriving DecidableEq, Repr

namespace Acceptor

def eh : Acceptor → ℕ
  | .tcp a => a.eh
  | .udp a => a.eh

def handle : Acceptor → ℤ
  | .tcp a => a.handle
  | .udp a => a.handle

def sink : Acceptor → Option ℕ
  | .tcp a => a.sink
  | .udp a => a.sink

def startListen (M : Masks) (w : Handlers.World) (a : Acceptor) (aSink : Option ℕ)
    (aAddrListen : Udp.InetAddr) (s : Attempt) : Handlers.World × Acceptor × CAWResult :=
  match a with
  | .tcp a =>
    let (w, a, rv) := a.startListen M w aSink s
    (w, .tcp a, rv)
  | .udp a =>
    let (w, a, rv) := a.startListen M w aSink aAddrListen s
    (w, .udp a, rv)

/-- The call is not refused at once. -/
def Attempted (a : Acceptor) (aSink : Option ℕ) : Prop := a.handle = -1 ∧ aSink ≠ none

instance (a : Acceptor) (aSink : Option ℕ) : Decidable (a.Attempted aSink) :=
  inferInstanceAs (Decidable (_ ∧ _))

/-- A call that fails takes back what it has done. -/
structure FailureOk (M : Masks) (w : Handlers.World) (a : Acceptor) (aSink : Option ℕ)
    (aAddrListen : Udp.InetAddr) (s : Attempt) : Prop where
  refused : ¬ a.Attempted aSink →
    ∃ rv, rv ≠ .ok ∧ a.startListen M w aSink aAddrListen s = (w, a, rv)
  attempted : a.Attempted aSink → ∀ w' a' rv,
    a.startListen M w aSink aAddrListen s = (w', a', rv) → rv ≠ .ok →
      Restored w w' a.eh a'.handle a'.sink

/-- No step of the call fails: there is a socket, it is bound, and the handler registered. -/
def Succeeds (M : Masks) (w : Handlers.World) (a : CFSAcceptorUdp) (s : Attempt) : Prop :=
  ∃ fd, s.socket = some fd ∧ 0 ≤ fd ∧ w.isOpen fd = false ∧ s.bind = true ∧
    (registerHandler M { w with isOpen := Function.update w.isOpen fd true } a.eh fd M.read s).2 =
      .ok

/-- The condition. -/
def Clean (M : Masks) (w : Handlers.World) (aSink : Option ℕ) (s : Attempt) : Acceptor → Prop
  | .tcp _ => True
  | .udp a => (Acceptor.udp a).Attempted aSink → a.stopped = true → Succeeds M w a s

end Acceptor

/-! ### What is taken back -/

section takeBack

variable {M : Masks} {w w' : Handlers.World} {eh : ℕ} {fd : ℤ} {mask : MASK} {s : Attempt}

/-- Bindings are only removed, or keep their handler. -/
def Sub (w' w : Handlers.World) : Prop :=
  w'.isOpen = w.isOpen ∧ ∀ fd ele', w'.repository fd = some ele' →
    ∃ ele, w.repository fd = some ele ∧ ele.eh = ele'.eh

theorem sub_removeHandler : Sub (w.removeHandler M eh fd mask).1 w := by
  refine ⟨removeHandler_isOpen M w eh fd mask, fun fd' ele' hele => ?_⟩
  obtain ⟨ele, hfind, heh, -⟩ := (removed_removeHandler M w eh fd mask).within fd' ele' hele
  exact ⟨ele, hfind, heh⟩

theorem registered_attempt (M : Masks) (w : Handlers.World) (eh : ℕ) (fd : ℤ) (mask : MASK)
    (s : Attempt) : Registered M w eh fd mask (registerHandler M w eh fd mask s).1
      (registerHandler M w eh fd mask s).2 := by
  unfold registerHandler
  dsimp only
  split
  · exact .same rfl
  · exact registered_registerHandler M w eh fd mask

/-- What `StopListen` leaves of a new socket, whether or not the handler was bound. -/
theorem restored_of_sub {wo : Handlers.World} (hopen : w.isOpen fd = false)
    (hwo : wo = { w with isOpen := Function.update w.isOpen fd true }) (h : Sub w' wo) :
    Restored w (closeSocket w' fd) eh (-1) none := by
  subst hwo
  refine ⟨rfl, rfl, ?_, fun fd' ele' hele heh => ?_⟩
  · change Function.update w'.isOpen fd false = w.isOpen
    rw [h.1, Function.update_idem, ← hopen, Function.update_eq_self]
  · obtain ⟨ele, hele, heq⟩ := h.2 fd' ele' hele
    exact ⟨ele, hele, heq.trans heh⟩

/-- `RemoveHandler` takes a `RegisterHandler` back. -/
theorem sub_attempt (M : Masks) (w : Handlers.World) (eh : ℕ) (fd : ℤ) (mask : MASK)
    (s : Attempt) : Sub ((registerHandler M w eh fd mask s).1.removeHandler M eh fd mask).1 w := by
  have hreg := registered_attempt M w eh fd mask s
  generalize (registerHandler M w eh fd mask s).1 = w₁ at hreg ⊢
  have hremoved : Sub (w₁.removeHandler M eh fd mask).1 w₁ := sub_removeHandler
  refine ⟨hremoved.1.trans hreg.isOpen, fun fd' ele' hele => ?_⟩
  obtain ⟨ele, hele₁, heh⟩ := hremoved.2 fd' ele' hele
  cases hreg with
  | same hsame =>
    rw [hsame] at hele₁
    exact ⟨ele, hele₁, heh⟩
  | bound binding hne _ hrep =>
    -- the handler was bound, and is bound no more
    have hbound : w₁.repository fd = some ⟨eh, mask &&& M.allEvents, binding⟩ := by
      rw [hrep, Function.update_self]
    have hgone : (w₁.removeHandler M eh fd mask).1.repository fd = none :=
      (removed_removeHandler M w₁ eh fd mask).eq_none hbound ⟨BitVec.and_self, hne⟩
    have hfd : fd' ≠ fd := by
      rintro rfl
      rw [hgone] at hele
      contradiction
    rw [hrep, Function.update_of_ne hfd] at hele₁
    exact ⟨ele, hele₁, heh⟩

end takeBack

/-! ### The two acceptors -/

variable {M : Masks} {w w' : Handlers.World} {aSink : Option ℕ} {s : Attempt}

/-- A new socket, or none. -/
theorem openSocket_cases (w : Handlers.World) (s : Attempt) :
    openSocket w s = (w, -1) ∨ ∃ fd, s.socket = some fd ∧ 0 ≤ fd ∧ w.isOpen fd = false ∧
      openSocket w s = ({ w with isOpen := Function.update w.isOpen fd true }, fd) := by
  unfold openSocket
  split
  · exact .inl rfl
  · next fd hfd =>
    split
    · exact .inl rfl
    · next hnew =>
      obtain ⟨hneg, hclosed⟩ := not_or.mp hnew
      exact .inr ⟨fd, hfd, Int.not_lt.mp hneg, eq_false_of_ne_true hclosed, rfl⟩

namespace CFSAcceptorTcp

variable {a : CFSAcceptorTcp}

theorem startListen_of_open (h : a.handle ≠ -1) :
    a.startListen M w aSink s = (w, a, .alreadyInitialized) := if_pos h

theorem startListen_of_null (h : a.handle = -1) :
    a.startListen M w none s = (w, a, .invalidArg) := by
  rw [startListen, if_neg (not_not.mpr h), if_pos rfl]

/-- `StopListen` after a socket was opened. -/
theorem fail_restored {a' : CFSAcceptorTcp} {rv rv' : CAWResult} {w₁ : Handlers.World}
    (hne : a.handle ≠ -1) (hclosed : w.isOpen a.handle = false)
    (hsub : Sub (w₁.removeHandler M a.eh a.handle M.accept).1
      { w with isOpen := Function.update w.isOpen a.handle true })
    (hfail : a.fail M w₁ rv = (w', a', rv')) : Restored w w' a.eh a'.handle a'.sink := by
  rw [fail, stopListen, if_pos hne] at hfail
  cases hfail
  exact restored_of_sub hclosed rfl hsub

/-- Everything is taken back. -/
theorem startListen_restored {a' : CFSAcceptorTcp} {rv : CAWResult} (h : a.handle = -1)
    (hsink : aSink ≠ none) (hstart : a.startListen M w aSink s = (w', a', rv)) (hrv : rv ≠ .ok) :
    Restored w w' a.eh a'.handle a'.sink := by
  rw [startListen, if_neg (not_not.mpr h), if_neg hsink] at hstart
  dsimp only at hstart
  rcases openSocket_cases w s with hopen | ⟨fd, _, hfd, hclosed, hopen⟩
  · rw [hopen] at hstart
    cases hstart
    exact ⟨rfl, rfl, rfl, fun fd ele' hele heh => ⟨ele', hele, heh⟩⟩
  · rw [hopen] at hstart
    dsimp only at hstart
    have hne : fd ≠ -1 := by omega
    rw [if_neg hne] at hstart
    split at hstart
    · exact fail_restored (a := ⟨a.eh, fd, aSink⟩) hne hclosed sub_removeHandler hstart
    split at hstart
    · exact fail_restored (a := ⟨a.eh, fd, aSink⟩) hne hclosed sub_removeHandler hstart
    split at hstart
    · exact fail_restored (a := ⟨a.eh, fd, aSink⟩) hne hclosed (sub_attempt M _ a.eh fd M.accept s)
        hstart
    · cases hstart
      exact absurd rfl hrv

end CFSAcceptorTcp

namespace CFSAcceptorUdp

variable {a : CFSAcceptorUdp} {aAddrListen : Udp.InetAddr}

theorem startListen_of_open (h : a.handle ≠ -1) :
    a.startListen M w aSink aAddrListen s = (w, a, .alreadyInitialized) := if_pos h

theorem startListen_of_null (h : a.handle = -1) :
    a.startListen M w none aAddrListen s = (w, a, .invalidArg) := by
  rw [startListen, if_neg (not_not.mpr h), if_pos rfl]

/-- While the flag is set nothing is taken back. -/
theorem fail_of_stopped (h : a.stopped = true) (rv : CAWResult) :
    a.fail M w rv = (w, a, rv) := by
  rw [fail, stopListen, if_pos h]

/-- `StopListen` after a failure, with a flag that is not set. -/
theorem fail_restored {a' : CFSAcceptorUdp} {rv rv' : CAWResult} {w₁ : Handlers.World}
    (hstart : a.stopped = false) (hne : a.handle ≠ -1) (hclosed : w.isOpen a.handle = false)
    (hsub : Sub (w₁.removeHandler M a.eh a.handle M.read).1
      { w with isOpen := Function.update w.isOpen a.handle true })
    (hfail : a.fail M w₁ rv = (w', a', rv')) : Restored w w' a.eh a'.handle a'.sink := by
  rw [fail, stopListen, if_neg (by rw [hstart]; exact Bool.false_ne_true), if_pos hne] at hfail
  cases hfail
  exact restored_of_sub hclosed rfl hsub

theorem isOpen_closeSocket {fd : ℤ} (h : w.isOpen fd = false) :
    (closeSocket { w with isOpen := Function.update w.isOpen fd true } fd).isOpen = w.isOpen := by
  change Function.update (Function.update w.isOpen fd true) fd false = w.isOpen
  rw [Function.update_idem, ← h, Function.update_eq_self]

/-- How an attempt ends. -/
inductive Ends (M : Masks) (w : Handlers.World) (a : CFSAcceptorUdp) (aSink : Option ℕ)
    (s : Attempt) : Handlers.World × CFSAcceptorUdp × CAWResult → Prop
  | succeeds {w' : Handlers.World} {a' : CFSAcceptorUdp} (h : Acceptor.Succeeds M w a s) :
      Ends M w a aSink s (w', a', .ok)
  /-- there is no bound socket -/
  | noSocket {w₁ : Handlers.World} (hopen : w₁.isOpen = w.isOpen)
      (hrep : w₁.repository = w.repository) : Ends M w a aSink s
        (fail M w₁ { a with sink := aSink, handle := -1 } .networkSocketError)
  /-- the handler is not registered -/
  | notRegistered {w₁ : Handlers.World} {fd : ℤ} {rv : CAWResult} (hrv : rv ≠ .ok) (hne : fd ≠ -1)
      (hclosed : w.isOpen fd = false)
      (hsub : Sub (w₁.removeHandler M a.eh fd M.read).1
        { w with isOpen := Function.update w.isOpen fd true }) :
      Ends M w a aSink s (fail M w₁ { a with sink := aSink, handle := fd } rv)

theorem startListen_ends (h : a.handle = -1) (hsink : aSink ≠ none) :
    Ends M w a aSink s (a.startListen M w aSink aAddrListen s) := by
  rw [startListen, if_neg (not_not.mpr h), if_neg hsink, openBound]
  dsimp only
  rcases openSocket_cases w s with hopen | ⟨fd, hsocket, hfd, hclosed, hopen⟩
  · rw [hopen]
    exact .noSocket rfl rfl
  · rw [hopen]
    dsimp only
    have hne : fd ≠ -1 := by omega
    rw [if_neg hne]
    cases hbind : s.bind with
    | false => exact .noSocket (isOpen_closeSocket hclosed) rfl
    | true =>
      simp only [Bool.not_true, Bool.false_eq_true, reduceIte, hne]
      split
      · next hfailed =>
        have hrv := CAWResult.failed_iff.mp hfailed
        exact .notRegistered hrv hne hclosed (sub_attempt M _ a.eh fd M.read s)
      · next hok =>
        refine .succeeds ⟨fd, hsocket, hfd, hclosed, hbind, ?_⟩
        exact not_not.mp fun hrv => hok (CAWResult.failed_iff.mpr hrv)

theorem startListen_of_succeeds (h : a.handle = -1) (hsink : aSink ≠ none)
    (hs : Acceptor.Succeeds M w a s) : (a.startListen M w aSink aAddrListen s).2.2 = .ok := by
  obtain ⟨fd, hsocket, hfd, hclosed, hbind, hrv⟩ := hs
  have hopen : openSocket w s = ({ w with isOpen := Function.update w.isOpen fd true }, fd) := by
    rw [openSocket, hsocket]
    exact if_neg (not_or.mpr ⟨Int.not_lt.mpr hfd, by rw [hclosed]; exact Bool.false_ne_true⟩)
  have hne : fd ≠ -1 := by omega
  rw [startListen, if_neg (not_not.mpr h), if_neg hsink, openBound, hopen]
  simp only [hne, hbind, Bool.not_true, Bool.false_eq_true, reduceIte, CAWResult.failed_iff, hrv,
    not_true_eq_false, ne_eq]

/-- An attempt leaves the acceptor as it was if the flag is not set. -/
theorem startListen_restored {a' : CFSAcceptorUdp} {rv : CAWResult} (h : a.handle = -1)
    (hsink : aSink ≠ none) (hflag : a.stopped = false)
    (hstart : a.startListen M w aSink aAddrListen s = (w', a', rv)) (hrv : rv ≠ .ok) :
    Restored w w' a.eh a'.handle a'.sink := by
  have hends : Ends M w a aSink s (a.startListen M w aSink aAddrListen s) :=
    startListen_ends h hsink
  rw [hstart] at hends
  generalize hresult : (w', a', rv) = result at hends
  cases hends with
  | succeeds _ =>
    cases hresult
    exact absurd rfl hrv
  | noSocket hopen hrep =>
    rw [fail, stopListen, if_neg (by rw [hflag]; exact Bool.false_ne_true)] at hresult
    cases hresult
    refine ⟨rfl, rfl, hopen, fun fd ele' hele heh => ⟨ele', ?_, heh⟩⟩
    rw [← hrep]
    exact hele
  | notRegistered _ hne hclosed hsub =>
    exact fail_restored (a := { a with sink := aSink, handle := _ }) hflag hne hclosed hsub
      hresult.symm

/-- It keeps its sink if the flag is set. -/
theorem sink_of_stopped (h : a.handle = -1)
    (hsink : aSink ≠ none) (hflag : a.stopped = true)
    (hs : ¬ Acceptor.Succeeds M w a s) :
    ∃ w' a' rv, a.startListen M w aSink aAddrListen s = (w', a', rv) ∧ rv ≠ .ok ∧
      a'.sink = aSink := by
  have hends : Ends M w a aSink s (a.startListen M w aSink aAddrListen s) :=
    startListen_ends h hsink
  generalize a.startListen M w aSink aAddrListen s = result at hends
  cases hends with
  | succeeds h => exact absurd h hs
  | @noSocket w₁ _ _ =>
    refine ⟨w₁, { a with sink := aSink, handle := -1 }, .networkSocketError, ?_, by decide, rfl⟩
    exact fail_of_stopped (a := { a with sink := aSink, handle := -1 }) hflag _
  | @notRegistered w₁ fd rv hrv _ _ _ =>
    refine ⟨w₁, { a with sink := aSink, handle := fd }, rv, ?_, hrv, rfl⟩
    exact fail_of_stopped (a := { a with sink := aSink, handle := fd }) hflag _

end CFSAcceptorUdp

namespace Acceptor

variable {a : Acceptor} {aAddrListen : Udp.InetAddr}

/-- A call that is refused changes nothing. -/
theorem startListen_of_refused (h : ¬ a.Attempted aSink) :
    ∃ rv, rv ≠ .ok ∧ a.startListen M w aSink aAddrListen s = (w, a, rv) := by
  by_cases hhandle : a.handle = -1
  · have hnull : aSink = none := not_not.mp fun hsink => h ⟨hhandle, hsink⟩
    subst hnull
    refine ⟨.invalidArg, by decide, ?_⟩
    cases a with
    | tcp a => rw [startListen, CFSAcceptorTcp.startListen_of_null hhandle]
    | udp a => rw [startListen, CFSAcceptorUdp.startListen_of_null hhandle]
  · refine ⟨.alreadyInitialized, by decide, ?_⟩
    cases a with
    | tcp a => rw [startListen, CFSAcceptorTcp.startListen_of_open hhandle]
    | udp a => rw [startListen, CFSAcceptorUdp.startListen_of_open hhandle]

theorem startListen_tcp {a : CFSAcceptorTcp} {a' : Acceptor} {rv : CAWResult}
    (h : startListen M w (.tcp a) aSink aAddrListen s = (w', a', rv)) :
    ∃ a₁, a' = .tcp a₁ ∧ a.startListen M w aSink s = (w', a₁, rv) := by
  rw [startListen] at h
  generalize a.startListen M w aSink s = result at h ⊢
  cases h
  exact ⟨_, rfl, rfl⟩

theorem startListen_udp {a : CFSAcceptorUdp} {a' : Acceptor} {rv : CAWResult}
    (h : startListen M w (.udp a) aSink aAddrListen s = (w', a', rv)) :
    ∃ a₁, a' = .udp a₁ ∧ a.startListen M w aSink aAddrListen s = (w', a₁, rv) := by
  rw [startListen] at h
  generalize a.startListen M w aSink aAddrListen s = result at h ⊢
  cases h
  exact ⟨_, rfl, rfl⟩

/-- **When a failing `StartListen` takes everything back**: always for the TCP acceptor, and for
the UDP acceptor only when its stop flag is not set, which at that point it is, or when no step
fails. -/
theorem failureOk_iff (M : Masks) (w : Handlers.World) (a : Acceptor) (aSink : Option ℕ)
    (aAddrListen : Udp.InetAddr) (s : Attempt) :
    FailureOk M w a aSink aAddrListen s ↔ Clean M w aSink s a := by
  cases a with
  | tcp a =>
    refine iff_of_true ⟨startListen_of_refused, ?_⟩ trivial
    rintro ⟨hhandle, hsink⟩ w' a' rv hstart hrv
    obtain ⟨a₁, rfl, hstart₁⟩ := startListen_tcp hstart
    exact CFSAcceptorTcp.startListen_restored hhandle hsink hstart₁ hrv
  | udp a =>
    constructor
    · rintro ⟨_, hok⟩ ⟨hhandle, hsink⟩ hflag
      by_contra hs
      obtain ⟨w', a', rv, hstart, hrv, hkept⟩ :
          ∃ w' a' rv, a.startListen M w aSink aAddrListen s = (w', a', rv) ∧ rv ≠ .ok ∧
            a'.sink = aSink := CFSAcceptorUdp.sink_of_stopped hhandle hsink hflag hs
      have hrestored := hok ⟨hhandle, hsink⟩ w' (.udp a') rv (by rw [startListen, hstart]) hrv
      exact hsink (hkept.symm.trans hrestored.sink)
    · intro hclean
      refine ⟨startListen_of_refused, ?_⟩
      rintro ⟨hhandle, hsink⟩ w' a' rv hstart hrv
      obtain ⟨a₁, rfl, hstart₁⟩ := startListen_udp hstart
      cases hflag : a.stopped with
      | false => exact CFSAcceptorUdp.startListen_restored hhandle hsink hflag hstart₁ hrv
      | true =>
        have hrv' : (a.startListen M w aSink aAddrListen s).2.2 = .ok :=
          CFSAcceptorUdp.startListen_of_succeeds hhandle hsink (hclean ⟨hhandle, hsink⟩ hflag)
        rw [hstart₁] at hrv'
        exact absurd hrv' hrv

/-- A UDP acceptor on which nothing was called yet. -/
def newUdp : Acceptor := .udp ⟨0, -1, none, none, true⟩

/-- The same acceptor after a `StartListen` in which `epoll_ctl` failed. -/
def leftOpen : Acceptor := .udp ⟨0, 5, some 7, none, true⟩

/-- The socket 5 stays open and the sink stays, and the next `StartListen` is refused. -/
theorem not_failureOk :
    ¬ FailureOk oneBitMasks init newUdp (some 7) ⟨0, 0⟩ ⟨some 5, true, true, false⟩ ∧
      newUdp.startListen oneBitMasks init (some 7) ⟨0, 0⟩ ⟨some 5, true, true, false⟩ =
        ({ init with isOpen := Function.update init.isOpen 5 true }, leftOpen, .failure) ∧
      leftOpen.startListen oneBitMasks { init with isOpen := Function.update init.isOpen 5 true }
          (some 7) ⟨0, 0⟩ ⟨some 6, true, true, true⟩ =
        ({ init with isOpen := Function.update init.isOpen 5 true }, leftOpen,
          .alreadyInitialized) := by
  have hstart : newUdp.startListen oneBitMasks init (some 7) ⟨0, 0⟩ ⟨some 5, true, true, false⟩ =
      ({ init with isOpen := Function.update init.isOpen 5 true }, leftOpen, .failure) := rfl
  refine ⟨fun h => ?_, hstart, rfl⟩
  have hrestored := h.attempted (by decide) _ _ _ hstart (by decide)
  exact absurd hrestored.handle (by decide)

end Acceptor

end VosStack.Listen
