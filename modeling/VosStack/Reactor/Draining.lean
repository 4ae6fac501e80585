import Mathlib.Data.Int.Notation
import VosStack.Transition.Loop

/-!
# Is all input consumed?

Descriptors are registered **edge-triggered**: a handler that leaves input behind is not told of it
again. So `OnInput` should go on until its socket reports `EWOULDBLOCK`, unless it gives the
descriptor up. Four handlers receive or accept in `OnInput`.

* `CFSTransportTcp` does so whatever its socket answers: it returns zero only for `EWOULDBLOCK`.
* `CFSAcceptorTcp` leaves its loop and returns zero on every error of `accept()`, also one that
  concerns only the connection at the head of the queue, and when a connection it has accepted
  cannot be used.
* `CFSAcceptorUdp` returns zero on every error of `recvfrom()`.
* `CFSReactorNotifyPipe` reads one record and returns zero.

The results of the socket calls are inputs, and so is what a callback, the user's code, leaves of
the handler: it may close the socket or open another one, and remove or register the handler.
-/

namespace VosStack.Draining

open Transition

/-! ### Results of socket calls -/

/-- `VOS_EAGAIN`. -/
def vosEagain : ℕ := 35

/-- `VOS_EWOULDBLOCK`. -/
def vosEwouldblock : ℕ := vosEagain

/-- What a socket call returns: a number that is not negative, or `-1` with an `errno`. -/
inductive Answer
  | returns (n : ℕ)
  | fails (errno : ℕ)
  deriving DecidableEq, Repr

namespace Answer

def nRet : Answer → ℤ
  | .returns n => n
  | .fails _ => -1

/-- The call reports that there is nothing left. -/
def WouldBlock : Answer → Prop
  | .returns _ => False
  | .fails errno => errno = vosEagain ∨ errno = vosEwouldblock

instance : DecidablePred WouldBlock
  | .returns _ => .isFalse id
  | .fails errno => inferInstanceAs (Decidable (errno = vosEagain ∨ errno = vosEwouldblock))

end Answer

/-! ### The handlers -/

/-- A handler with its socket. -/
structure Handler where
  /-- `GetHandle()`, none for `-1` -/
  handle : Option ℕ
  /-- it is bound in the reactor's repository -/
  registered : Bool
  /-- whom it calls: `m_pSink`, or `m_pReactor` of the notify pipe -/
  sink : Bool
  deriving DecidableEq, Repr

/-- The socket is open and the handler still registered. -/
def Handler.Live (h : Handler) : Prop := h.handle.isSome ∧ h.registered

instance (h : Handler) : Decidable h.Live := inferInstanceAs (Decidable (_ ∧ _))

/-- A call of the sink, if there is one. -/
def Handler.callback (h after : Handler) : Handler := if h.sink then after else h

/-- What `OnInput` returns, the handler then, and the last receive or accept call. -/
structure Return (σ : Type) where
  rv : ℤ
  state : σ
  last : Answer
  deriving DecidableEq, Repr

/-- No input is left behind. -/
def Return.Drained {σ : Type} (handler : σ → Handler) (r : Return σ) : Prop :=
  r.rv = 0 → (handler r.state).Live → r.last.WouldBlock

/-! #### `CFSTransportTcp` -/

structure TransportTcp extends Handler where
  /-- `m_TimerRereceive` is scheduled -/
  rereceive : Bool
  deriving DecidableEq, Repr

/-- A round of `CFSTransportTcp::OnEpollInput`. -/
structure RecvRound where
  recv : Answer
  /-- `Control(FIONREAD, &nAvailable)`, none for `-1` -/
  nAvailable : Option ℤ
  /-- the transport when `OnReceive` returns -/
  onReceive : TransportTcp
  deriving DecidableEq, Repr

/-- `EAGAIN` and `EWOULDBLOCK` of the host, which are one number. -/
def hostEagain : ℕ := 11

def hostEwouldblock : ℕ := 11

/-- `errno` after `CFSSocketBase::Recv` failed. -/
def recvErrno (errno : ℕ) : ℕ := if errno = hostEagain then hostEwouldblock else errno

/-- `CFSTransportTcp::Recv_i`. -/
def recv_i (t : TransportTcp) (r : RecvRound) : TransportTcp × ℤ :=
  match r.recv with
  | .fails errno =>
    if recvErrno errno = vosEwouldblock then
      ({ t with rereceive := t.rereceive || r.nAvailable.any (0 < ·) }, 0)
    else (t, -1)
  | .returns n =>
    -- a graceful disconnect
    if n = 0 then (t, -1)
    else (t, n)

def transportTcp (t : TransportTcp) (r : RecvRound) : TransportTcp ⊕ Return TransportTcp :=
  let (t, nRecv) := recv_i t r
  if nRecv ≤ 0 then .inr ⟨nRecv, t, r.recv⟩
  else .inl (if t.sink then r.onReceive else t)

/-! #### `CFSAcceptorTcp` -/

/-- A round of `CFSAcceptorTcp::OnEpollInput`. -/
structure AcceptRound where
  accept : Answer
  /-- there is memory for the transport -/
  pTrans : Bool
  /-- `Enable(NON_BLOCK)` on the new socket succeeds -/
  enable : Bool
  /-- the acceptor when `OnConnectIndication` returns -/
  onConnectIndication : Handler
  deriving DecidableEq, Repr

def acceptorTcp (a : Handler) (r : AcceptRound) : Handler ⊕ Return Handler :=
  match r.accept with
  | .fails _ => .inr ⟨0, a, r.accept⟩
  | .returns _ =>
    if !r.pTrans then .inr ⟨0, a, r.accept⟩
    else if !r.enable then .inr ⟨0, a, r.accept⟩
    else .inl (a.callback r.onConnectIndication)

/-! #### `CFSAcceptorUdp` -/

/-- A round of `CFSAcceptorUdp::OnEpollInput`. -/
structure RecvFromRound where
  recvFrom : Answer
  /-- there is a transport for the peer -/
  found : Bool
  /-- there is memory for a new one -/
  pTrans : Bool
  /-- the acceptor when `OnConnectIndication` returns -/
  onConnectIndication : Handler
  /-- the transport has a sink by then -/
  opened : Bool
  /-- the acceptor when `OnReceive` of that sink returns -/
  onReceive : Handler
  deriving DecidableEq, Repr

def acceptorUdp (a : Handler) (r : RecvFromRound) : Handler ⊕ Return Handler :=
  match r.recvFrom with
  | .fails _ => .inr ⟨0, a, r.recvFrom⟩
  | .returns _ =>
    if r.found then .inl (if r.opened then r.onReceive else a)
    else if !r.pTrans then .inr ⟨0, a, r.recvFrom⟩
    else .inl (if r.opened then r.onReceive else a.callback r.onConnectIndication)

/-! #### `CFSReactorNotifyPipe` -/

/-- What `CFSReactorNotifyPipe::OnInput` meets. -/
structure NotifyRound where
  recv : Answer
  /-- the record is for the read end of the pipe itself -/
  own : Bool
  /-- the notify handler when `ProcessHandleEvent` returns -/
  processHandleEvent : Handler
  deriving DecidableEq, Repr

/-- There is no loop; `size` is `sizeof(CBuffer)`. -/
def notifyPipe (size : ℕ) (p : Handler) (r : NotifyRound) : Handler ⊕ Return Handler :=
  if r.recv.nRet < size then .inr ⟨0, p, r.recv⟩
  else if r.own then .inr ⟨0, p, r.recv⟩
  else .inr ⟨0, p.callback r.processHandleEvent, r.recv⟩

/-! ### The contract -/

/-- A call of `OnInput` of one of the four handlers, with what it meets. -/
inductive Call
  | transportTcp (t : TransportTcp) (rounds : List RecvRound)
  | acceptorTcp (a : Handler) (rounds : List AcceptRound)
  | acceptorUdp (a : Handler) (rounds : List RecvFromRound)
  | notifyPipe (size : ℕ) (p : Handler) (rounds : List NotifyRound)
  deriving DecidableEq, Repr

/-- Whenever the call returns zero with its socket open and the handler registered, the last
receive or accept call has reported that nothing is left. -/
def Call.Drained : Call → Prop
  | .transportTcp t rounds =>
    ∀ r, loop Draining.transportTcp t rounds = some r → r.Drained TransportTcp.toHandler
  | .acceptorTcp a rounds => ∀ r, loop Draining.acceptorTcp a rounds = some r → r.Drained id
  | .acceptorUdp a rounds => ∀ r, loop Draining.acceptorUdp a rounds = some r → r.Drained id
  | .notifyPipe size p rounds =>
    ∀ r, loop (Draining.notifyPipe size) p rounds = some r → r.Drained id

/-- The connection, if there is one, can be used, and the call does not fail otherwise. -/
def AcceptRound.Clean (r : AcceptRound) : Prop :=
  match r.accept with
  | .fails _ => r.accept.WouldBlock
  | .returns _ => r.pTrans ∧ r.enable

def RecvFromRound.Clean (r : RecvFromRound) : Prop :=
  match r.recvFrom with
  | .fails _ => r.recvFrom.WouldBlock
  | .returns _ => r.found ∨ r.pTrans

/-- A whole record for another handler is read. -/
def NotifyRound.Forwarded (size : ℕ) (p : Handler) (r : NotifyRound) : Prop :=
  size ≤ r.recv.nRet ∧ r.own = false ∧ p.sink

/-- The pipe has no record, or the notify handler is no longer live after its record. -/
def NotifyRound.Clean (size : ℕ) (p : Handler) (r : NotifyRound) : Prop :=
  r.recv.WouldBlock ∨
    (r.Forwarded size p → ¬ r.processHandleEvent.Live) ∧ (¬ r.Forwarded size p → ¬ p.Live)

/-- The condition: every round that is made while the handler is open and registered is clean. -/
def Call.Clean : Call → Prop
  | .transportTcp _ _ => True
  | .acceptorTcp a rounds =>
    ∀ a' r, Visits Draining.acceptorTcp a rounds a' r → a'.Live → r.Clean
  | .acceptorUdp a rounds =>
    ∀ a' r, Visits Draining.acceptorUdp a rounds a' r → a'.Live → r.Clean
  | .notifyPipe size p rounds =>
    ∀ p' r, Visits (Draining.notifyPipe size) p rounds p' r → r.Clean size p'

/-! ### One round -/

theorem wouldBlock_fails_iff {errno : ℕ} :
    (Answer.fails errno).WouldBlock ↔ errno = vosEwouldblock := or_self_iff

/-- What `CFSSocketBase::Recv` does to `errno` is not seen by the transport. -/
theorem recvErrno_eq (errno : ℕ) : recvErrno errno = errno := by
  unfold recvErrno
  split
  · next h => exact h.symm
  · rfl

/-- The transport takes nothing else for the end of the input. -/
theorem wouldBlock_of_recv_i {t : TransportTcp} {r : RecvRound} (h : (recv_i t r).2 = 0) :
    r.recv.WouldBlock := by
  unfold recv_i at h
  split at h
  · next errno herr =>
    rw [recvErrno_eq] at h
    rw [herr, wouldBlock_fails_iff]
    split at h
    · next hblock => exact hblock
    · contradiction
  · next n hn =>
    split at h
    · contradiction
    · next hne => exact absurd (Int.natCast_eq_zero.mp h) hne

theorem transportTcp_drained {t : TransportTcp} {r : RecvRound} {ret : Return TransportTcp}
    (h : transportTcp t r = .inr ret) : ret.Drained TransportTcp.toHandler := by
  unfold transportTcp at h
  dsimp only at h
  split at h
  · cases h
    intro hrv _
    exact wouldBlock_of_recv_i hrv
  · contradiction

/-- A round that leaves with zero. -/
theorem leaves_drained_iff {a : Handler} {last : Answer} :
    (∀ ret, (.inr ⟨0, a, last⟩ : Handler ⊕ Return Handler) = .inr ret → ret.Drained id) ↔
      (a.Live → last.WouldBlock) := by
  constructor
  · intro h
    exact h _ rfl rfl
  · rintro h ret ⟨rfl⟩ _
    exact h

/-- A round that goes on. -/
theorem goesOn_drained {a : Handler} :
    ∀ ret, (.inl a : Handler ⊕ Return Handler) = .inr ret → ret.Drained id :=
  fun _ h => nomatch h

/-- A connection or datagram was taken from the queue, and the loop is left all the same. -/
theorem leaves_returns_iff {a : Handler} {last : Answer} {n : ℕ} (h : last = .returns n) :
    (∀ ret, (.inr ⟨0, a, last⟩ : Handler ⊕ Return Handler) = .inr ret → ret.Drained id) ↔
      ¬ a.Live := by
  rw [leaves_drained_iff, h]
  exact Iff.rfl

theorem acceptorTcp_drained_iff {a : Handler} {r : AcceptRound} :
    (∀ ret, acceptorTcp a r = .inr ret → ret.Drained id) ↔ (a.Live → r.Clean) := by
  unfold acceptorTcp AcceptRound.Clean
  split
  · exact leaves_drained_iff
  · next n hn =>
    cases r.pTrans with
    | false =>
      refine (leaves_returns_iff hn).trans ?_
      exact forall_congr' fun _ => iff_of_false id (fun h => Bool.false_ne_true h.1)
    | true =>
      cases r.enable with
      | false =>
        refine (leaves_returns_iff hn).trans ?_
        exact forall_congr' fun _ => iff_of_false id (fun h => Bool.false_ne_true h.2)
      | true => exact iff_of_true goesOn_drained fun _ => ⟨rfl, rfl⟩

theorem acceptorUdp_drained_iff {a : Handler} {r : RecvFromRound} :
    (∀ ret, acceptorUdp a r = .inr ret → ret.Drained id) ↔ (a.Live → r.Clean) := by
  unfold acceptorUdp RecvFromRound.Clean
  split
  · exact leaves_drained_iff
  · next n hn =>
    cases r.found with
    | true => exact iff_of_true goesOn_drained fun _ => .inl rfl
    | false =>
      cases r.pTrans with
      | false =>
        refine (leaves_returns_iff hn).trans ?_
        exact forall_congr' fun _ =>
          iff_of_false id (fun h => h.elim Bool.false_ne_true Bool.false_ne_true)
      | true => exact iff_of_true goesOn_drained fun _ => .inr rfl

theorem nRet_neg_of_wouldBlock {a : Answer} (h : a.WouldBlock) : a.nRet < 0 := by
  cases a with
  | returns n => exact h.elim
  | fails errno => exact Int.negSucc_lt_zero 0

theorem notifyPipe_drained_iff {size : ℕ} {p : Handler} {r : NotifyRound} :
    (∀ ret, notifyPipe size p r = .inr ret → ret.Drained id) ↔ r.Clean size p := by
  rw [NotifyRound.Clean]
  unfold notifyPipe
  split
  · next hshort =>
    have hkept : ¬ r.Forwarded size p := fun h => absurd h.1 (Int.not_le.mpr hshort)
    rw [leaves_drained_iff]
    tauto
  · next hwhole =>
    have hblock : ¬ r.recv.WouldBlock := by
      intro h
      have hneg := nRet_neg_of_wouldBlock h
      omega
    split
    · next hown =>
      have hkept : ¬ r.Forwarded size p := by
        rintro ⟨_, hother, _⟩
        exact Bool.false_ne_true (hother.symm.trans hown)
      rw [leaves_drained_iff]
      tauto
    · next hown =>
      -- what counts is the handler that `ProcessHandleEvent` leaves, if it is called
      have hforwarded : r.Forwarded size p ↔ p.sink := by
        refine ⟨fun h => h.2.2, fun hsink => ⟨by omega, eq_false_of_ne_true hown, hsink⟩⟩
      rw [leaves_drained_iff, Handler.callback, hforwarded]
      split
      · tauto
      · tauto

/-! ### Whole calls -/

/-- **When all input is consumed.** -/
theorem drained_iff_clean (c : Call) : c.Drained ↔ c.Clean := by
  cases c with
  | transportTcp t rounds =>
    refine iff_of_true ?_ trivial
    exact loop_forall_iff.mpr fun _ _ _ _ => transportTcp_drained
  | acceptorTcp a rounds =>
    rw [Call.Drained, loop_forall_iff]
    exact forall₃_congr fun _ _ _ => acceptorTcp_drained_iff
  | acceptorUdp a rounds =>
    rw [Call.Drained, loop_forall_iff]
    exact forall₃_congr fun _ _ _ => acceptorUdp_drained_iff
  | notifyPipe size p rounds =>
    rw [Call.Drained, loop_forall_iff]
    exact forall₃_congr fun _ _ _ => notifyPipe_drained_iff

/-- A handler on descriptor 5. -/
def live : Handler := ⟨some 5, true, true⟩

def econnaborted : ℕ := 53

def enobufs : ℕ := 55

/-- A connection is aborted before it is accepted; one that was accepted cannot be made
non-blocking; a datagram cannot be received for lack of buffers; a whole record is read. Whatever
is queued behind each of them is left. -/
theorem not_drained :
    ¬ (Call.acceptorTcp live [⟨.fails econnaborted, true, true, live⟩]).Drained ∧
    ¬ (Call.acceptorTcp live [⟨.returns 9, true, false, live⟩]).Drained ∧
    ¬ (Call.acceptorUdp live [⟨.fails enobufs, true, true, live, true, live⟩]).Drained ∧
    ¬ (Call.notifyPipe 16 live [⟨.returns 16, false, live⟩]).Drained := by
  refine ⟨?_, ?_, ?_, ?_⟩
  · intro h
    exact absurd (h ⟨0, live, .fails econnaborted⟩ rfl rfl (by decide)) (by decide)
  · intro h
    exact absurd (h ⟨0, live, .returns 9⟩ rfl rfl (by decide)) (by decide)
  · intro h
    exact absurd (h ⟨0, live, .fails enobufs⟩ rfl rfl (by decide)) (by decide)
  · intro h
    exact absurd (h ⟨0, live, .returns 16⟩ rfl rfl (by decide)) (by decide)

end VosStack.Draining
