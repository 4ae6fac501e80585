import VosStack.Reactor.Draining
import VosStack.Udp.Transport

/-!
# A connected UDP transport and what its peer sends

`CFSTransportUdp::OnEpollInput` receives datagrams in a loop. A result that is not positive ends the
loop, and `errno` then decides: zero is returned for `EWOULDBLOCK`, `-1` otherwise, and the reactor
takes the handler out of its repository and calls `OnClose`, which closes the socket and reports
`OnDisconnect`.

But a result of zero is an **empty datagram**, and a call that succeeds does not set `errno`: its
value is the one that some earlier call has left. So the peer ends the transport by an empty
datagram, unless `errno` happens to be `EWOULDBLOCK`. Sessions live on exactly in the runs in which
no empty datagram is received with another value in `errno`.

A state is the transport with the thread's `errno`. Callbacks, and the code that runs between two
dispatches of the transport, leave any value in `errno`; and they may call `Disconnect`, after which
the transport is not opened again, since its socket is closed.
-/

namespace VosStack.Udp.Connected

open Transition Draining

structure World where
  transport : CFSTransportUdp
  /-- the handler is bound in the reactor's repository -/
  registered : Bool
  errno : ℕ
  /-- ghost: the calls of `OnDisconnect` -/
  onDisconnect : ℕ
  /-- ghost: a receive call has failed with an error other than `EWOULDBLOCK` -/
  failed : Bool
  /-- ghost: the user has called `Disconnect` -/
  left : Bool
  deriving DecidableEq, Repr

/-- What one round of the loop meets. -/
structure Round where
  /-- the datagram, with at most `sizeof(szBuf)` bytes, or an error -/
  recv : Draining.Answer
  /-- `errno` when `OnReceive` returns -/
  errno : ℕ
  /-- `OnReceive` calls `Disconnect` -/
  disconnect : Bool
  deriving DecidableEq, Repr

def ebadf : ℕ := 9

namespace World

/-- `CFSTransportBase::Disconnect` with `CFSTransportUdp::Disconnect_t`. -/
def disconnect (w : World) : World :=
  let w := { w with left := true }
  match w.transport.handle with
  | none => { w with transport.sink := none }
  | some _ => { w with registered := false, transport.handle := none, transport.sink := none }

/-- `CFSSocketBase::Recv`, with `errno`, which a call that succeeds does not touch. -/
def recv (w : World) (r : Round) : World × Draining.Answer :=
  let answer := if w.transport.handle = none then .fails ebadf else r.recv
  match answer with
  | .returns n => (w, .returns n)
  | .fails errno =>
    ({ w with
      errno := recvErrno errno
      failed := w.failed || errno != vosEwouldblock }, .fails errno)

/-- `CFSTransportUdp::OnReceiveCallback`. -/
def onReceiveCallback (w : World) (r : Round) : World :=
  if w.transport.sink.isSome then
    let w := { w with errno := r.errno }
    if r.disconnect then w.disconnect else w
  else w

/-- A round of `CFSTransportUdp::OnEpollInput`; it is left with the result. -/
def onEpollInput (w : World) (r : Round) : World ⊕ World × ℤ :=
  let (w, answer) := w.recv r
  if answer.nRet ≤ 0 then
    if w.errno = vosEwouldblock then .inr (w, 0) else .inr (w, -1)
  else .inl (w.onReceiveCallback r)

/-- `CFSTransportBase::OnClose` with `CFSTransportUdp::Close_t`. -/
def onClose (w : World) : World :=
  if w.transport.sink.isSome then
    { w with
      transport.handle := none
      transport.sink := none
      onDisconnect := w.onDisconnect + 1 }
  else w

/-- `ProcessHandleEvent` after `OnInput`: for a result that is not zero it looks for the handler
again and removes it. -/
def processHandleEvent (w : World) (nOnCall : ℤ) : World :=
  if nOnCall = 0 then w
  else if w.registered then onClose { w with registered := false }
  else w

end World

inductive Action
  /-- the reactor calls `OnInput` -/
  | input (rounds : List Round)
  /-- other code of the thread leaves that value in `errno` -/
  | errno (e : ℕ)
  | disconnect
  deriving DecidableEq, Repr

def step (w : World) : Action → Option World
  | .input rounds =>
    if w.registered then
      (loop World.onEpollInput w rounds).map fun r => r.1.processHandleEvent r.2
    else none
  | .errno e => some { w with errno := e }
  | .disconnect => some w.disconnect

/-- A connected transport after `OpenWithSink`. -/
def opened (fd : ℕ) (addrSend : InetAddr) (aSink errno : ℕ) : World :=
  ⟨⟨some fd, none, addrSend, some aSink⟩, true, errno, 0, false, false⟩

/-! ### The contract -/

/-- The transport is registered, open and has its sink. -/
def World.Live (w : World) : Prop :=
  w.registered ∧ w.transport.handle.isSome ∧ w.transport.sink.isSome

instance (w : World) : Decidable w.Live := inferInstanceAs (Decidable (_ ∧ _))

/-- Only a failing receive call, or the user, ends it. -/
structure Kept (w : World) : Prop where
  live : w.failed = false → w.left = false → w.Live
  silent : w.failed = false → w.onDisconnect = 0

/-- An empty datagram finds `EWOULDBLOCK` in `errno`. -/
def World.Quiet (w : World) (r : Round) : Prop :=
  w.transport.handle.isSome → r.recv = .returns 0 → w.errno = vosEwouldblock

/-- The condition: so it is in every round of a call. -/
def Quiet (w : World) : Action → Prop
  | .input rounds => ∀ w' r, Visits World.onEpollInput w rounds w' r → w'.Quiet r
  | .errno _ => True
  | .disconnect => True

/-! ### The two phases of a transport -/

/-- Nothing has ended it yet. -/
structure On (w : World) : Prop where
  registered : w.registered = true
  handle : w.transport.handle.isSome
  sink : w.transport.sink.isSome
  failed : w.failed = false
  left : w.left = false
  silent : w.onDisconnect = 0

/-- It was ended, and not by the peer. -/
structure Off (w : World) : Prop where
  registered : w.registered = false
  handle : w.transport.handle = none
  ended : w.left = true ∨ w.failed = true
  silent : w.failed = false → w.onDisconnect = 0

/-- The invariant. -/
def Inv (w : World) : Prop := On w ∨ Off w

theorem inv_opened (fd : ℕ) (addrSend : InetAddr) (aSink errno : ℕ) :
    Inv (opened fd addrSend aSink errno) := .inl ⟨rfl, rfl, rfl, rfl, rfl, rfl⟩

theorem kept_of_inv {w : World} (h : Inv w) : Kept w := by
  rcases h with hon | hoff
  · exact ⟨fun _ _ => ⟨hon.registered, hon.handle, hon.sink⟩, fun _ => hon.silent⟩
  · refine ⟨fun hfailed hleft => ?_, hoff.silent⟩
    rcases hoff.ended with h | h
    · exact absurd (hleft.symm.trans h) Bool.false_ne_true
    · exact absurd (hfailed.symm.trans h) Bool.false_ne_true

theorem On.errno {w : World} (h : On w) (e : ℕ) : On { w with errno := e } :=
  ⟨h.registered, h.handle, h.sink, h.failed, h.left, h.silent⟩

theorem Off.errno {w : World} (h : Off w) (e : ℕ) : Off { w with errno := e } :=
  ⟨h.registered, h.handle, h.ended, h.silent⟩

theorem On.disconnect {w : World} (h : On w) : Off w.disconnect := by
  obtain ⟨fd, hfd⟩ := Option.isSome_iff_exists.mp h.handle
  have hw : w.disconnect =
      { w with
        left := true
        registered := false
        transport.handle := none
        transport.sink := none } := by
    rw [World.disconnect]
    simp only [hfd]
  rw [hw]
  exact ⟨rfl, rfl, .inl rfl, fun _ => h.silent⟩

theorem Off.disconnect {w : World} (h : Off w) : Off w.disconnect := by
  have hw : w.disconnect = { w with left := true, transport.sink := none } := by
    rw [World.disconnect]
    simp only [h.handle]
  rw [hw]
  exact ⟨h.registered, h.handle, .inl rfl, h.silent⟩

/-! ### One round -/

variable {w w' : World} {r : Round} {answer : Draining.Answer}

theorem recv_of_handle_eq_none (h : w.transport.handle = none) :
    w.recv r = ({ w with errno := ebadf, failed := true }, .fails ebadf) := by
  rw [World.recv]
  simp only [h, reduceIte, recvErrno_eq]
  rw [show (ebadf != vosEwouldblock) = true from rfl, Bool.or_true]

theorem recv_of_fails (h : w.transport.handle.isSome) {e : ℕ} (hr : r.recv = .fails e) :
    w.recv r = ({ w with errno := e, failed := w.failed || e != vosEwouldblock }, .fails e) := by
  rw [World.recv]
  simp only [Option.ne_none_iff_isSome.mpr h, hr, reduceIte, recvErrno_eq]

theorem recv_of_returns (h : w.transport.handle.isSome) {n : ℕ} (hr : r.recv = .returns n) :
    w.recv r = (w, .returns n) := by
  rw [World.recv]
  simp only [Option.ne_none_iff_isSome.mpr h, hr, reduceIte]

theorem nRet_fails_nonpos (e : ℕ) : (Draining.Answer.fails e).nRet ≤ 0 :=
  Int.le_of_lt (Int.negSucc_lt_zero 0)

theorem onEpollInput_of_nonpos (h : w.recv r = (w', answer)) (hneg : answer.nRet ≤ 0) :
    w.onEpollInput r = .inr (w', if w'.errno = vosEwouldblock then 0 else -1) := by
  rw [World.onEpollInput, h]
  simp only [hneg, reduceIte]
  split
  · rfl
  · rfl

theorem onEpollInput_of_pos (h : w.recv r = (w', answer)) (hpos : 0 < answer.nRet) :
    w.onEpollInput r = .inl (w'.onReceiveCallback r) := by
  rw [World.onEpollInput, h]
  exact if_neg (Int.not_le.mpr hpos)

/-- What a round does. The last case is the empty datagram that is taken for an error. -/
inductive Outcome (w : World) (r : Round) : World ⊕ World × ℤ → Prop
  | goesOn {w' : World} (hquiet : w.Quiet r) (h : Inv w') : Outcome w r (.inl w')
  | leaves {w' : World} {rv : ℤ} (hquiet : w.Quiet r) (h : Inv (w'.processHandleEvent rv)) :
      Outcome w r (.inr (w', rv))
  | ends (hstale : ¬ w.Quiet r) (h : ¬ Kept (w.processHandleEvent (-1))) :
      Outcome w r (.inr (w, -1))

/-- The reactor ends a transport that was not ended before. -/
theorem On.processHandleEvent (h : On w) {rv : ℤ} (hrv : rv ≠ 0) :
    w.processHandleEvent rv =
      { w with
        registered := false
        transport.handle := none
        transport.sink := none
        onDisconnect := w.onDisconnect + 1 } := by
  rw [World.processHandleEvent, if_neg hrv, if_pos h.registered, World.onClose]
  exact if_pos h.sink

/-- A failing call on the open socket: the transport goes on for `EWOULDBLOCK` only. -/
theorem On.inv_of_fails (h : On w) (e : ℕ) :
    Inv (World.processHandleEvent { w with errno := e, failed := w.failed || e != vosEwouldblock }
      (if e = vosEwouldblock then 0 else -1)) := by
  by_cases he : e = vosEwouldblock
  · subst he
    rw [if_pos rfl, h.failed]
    exact .inl ⟨h.registered, h.handle, h.sink, rfl, h.left, h.silent⟩
  · have hne : (e != vosEwouldblock) = true := bne_iff_ne.mpr he
    rw [if_neg he, hne, Bool.or_true, World.processHandleEvent, if_neg (by decide),
      if_pos h.registered, World.onClose]
    dsimp only
    rw [if_pos h.sink]
    exact .inr ⟨rfl, rfl, .inr rfl, nofun⟩

theorem outcome (h : Inv w) (r : Round) : Outcome w r (w.onEpollInput r) := by
  rcases h with hon | hoff
  · cases hr : r.recv with
    | fails e =>
      have hquiet : w.Quiet r := fun _ hempty => by rw [hr] at hempty; contradiction
      rw [onEpollInput_of_nonpos (recv_of_fails hon.handle hr) (nRet_fails_nonpos e)]
      exact .leaves hquiet (hon.inv_of_fails e)
    | returns n =>
      have hrecv := recv_of_returns hon.handle hr
      cases n with
      | zero =>
        rw [onEpollInput_of_nonpos hrecv (by decide)]
        by_cases herr : w.errno = vosEwouldblock
        · rw [if_pos herr]
          exact .leaves (fun _ _ => herr) (.inl hon)
        · rw [if_neg herr]
          refine .ends (fun hquiet => herr (hquiet hon.handle hr)) fun hkept => ?_
          rw [hon.processHandleEvent (by decide)] at hkept
          exact Nat.succ_ne_zero _ (hkept.silent hon.failed)
      | succ n =>
        have hquiet : w.Quiet r := fun _ hempty => by rw [hr] at hempty; cases hempty
        rw [onEpollInput_of_pos hrecv (Int.natCast_pos.mpr n.succ_pos)]
        refine .goesOn hquiet ?_
        rw [World.onReceiveCallback, if_pos hon.sink]
        dsimp only
        split
        · exact .inr (hon.errno r.errno).disconnect
        · exact .inl (hon.errno r.errno)
  · have hquiet : w.Quiet r := fun hopen _ => by rw [hoff.handle] at hopen; contradiction
    have herr : ebadf ≠ vosEwouldblock := by decide
    rw [onEpollInput_of_nonpos (recv_of_handle_eq_none hoff.handle) (nRet_fails_nonpos _)]
    refine .leaves hquiet (.inr ?_)
    rw [World.processHandleEvent]
    dsimp only
    rw [if_neg herr, if_neg (by decide), if_neg (by rw [hoff.registered]; decide)]
    exact ⟨hoff.registered, hoff.handle, .inr rfl, nofun⟩

/-- Every round of a call is made in one of the two phases. -/
theorem inv_of_visits (h : Inv w) {rounds : List Round}
    (hvisits : Visits World.onEpollInput w rounds w' r) : Inv w' := by
  refine hvisits.induct h fun s i s' hs hbody => ?_
  have hout := outcome hs i
  rw [hbody] at hout
  cases hout with
  | goesOn _ h => exact h

/-! ### Whole runs -/

/-- A round in which the loop may be left is harmless exactly when it does not take an empty
datagram for an error. -/
theorem leaves_kept_iff (h : Inv w) :
    (∀ ret, w.onEpollInput r = .inr ret → Kept (ret.1.processHandleEvent ret.2)) ↔ w.Quiet r := by
  have hout := outcome h r
  generalize w.onEpollInput r = res at hout ⊢
  cases hout with
  | goesOn hquiet _ => exact iff_of_true (fun _ hret => nomatch hret) hquiet
  | leaves hquiet hinv =>
    refine iff_of_true ?_ hquiet
    rintro _ ⟨rfl⟩
    exact kept_of_inv hinv
  | ends hstale hnot => exact iff_of_false (fun hkept => hnot (hkept _ rfl)) hstale

/-- What the user and the other code of the thread do leaves the transport in one of its phases. -/
theorem inv_errno (h : Inv w) (e : ℕ) : Inv { w with errno := e } :=
  h.imp (fun hon => hon.errno e) (fun hoff => hoff.errno e)

theorem inv_disconnect (h : Inv w) : Inv w.disconnect :=
  .inr (h.elim (fun hon => hon.disconnect) (fun hoff => hoff.disconnect))

/-- `OnInput` is not called for a transport that is not registered; its first round would fail. -/
theorem quiet_of_not_registered (h : Inv w) (hreg : ¬ w.registered = true) {rounds : List Round}
    (hvisits : Visits World.onEpollInput w rounds w' r) : w'.Quiet r := by
  have hoff : Off w := h.resolve_left fun hon => hreg hon.registered
  cases hvisits with
  | here =>
    intro hopen
    rw [hoff.handle] at hopen
    contradiction
  | there hbody _ =>
    rw [onEpollInput_of_nonpos (recv_of_handle_eq_none hoff.handle) (nRet_fails_nonpos _)] at hbody
    contradiction

theorem step_kept_iff (h : Inv w) (a : Action) :
    Quiet w a ↔ ∀ w' ∈ step w a, Kept w' := by
  cases a with
  | input rounds =>
    rw [step, Quiet]
    split
    · simp only [Option.mem_def, Option.map_eq_some_iff, forall_exists_index, and_imp,
        forall_apply_eq_imp_iff₂]
      rw [loop_forall_iff]
      refine forall₃_congr fun w' r hvisits => ?_
      exact (leaves_kept_iff (inv_of_visits h hvisits)).symm
    · next hreg =>
      refine iff_of_true (fun _ _ => quiet_of_not_registered h hreg) ?_
      exact fun _ hnone => nomatch hnone
  | errno e =>
    refine iff_of_true trivial ?_
    rintro _ ⟨rfl⟩
    exact kept_of_inv (inv_errno h e)
  | disconnect =>
    refine iff_of_true trivial ?_
    rintro _ ⟨rfl⟩
    exact kept_of_inv (inv_disconnect h)

theorem inv_step {a : Action} (h : Inv w) (hstep : step w a = some w') (hkept : Kept w') :
    Inv w' := by
  cases a with
  | input rounds =>
    rw [step, Option.ite_none_right_eq_some, Option.map_eq_some_iff] at hstep
    obtain ⟨_, ret, hloop, rfl⟩ := hstep
    obtain ⟨w₁, r, hvisits, hbody⟩ := loop_eq_some_iff.mp hloop
    have hout := outcome (inv_of_visits h hvisits) r
    rw [hbody] at hout
    cases hout with
    | leaves _ hinv => exact hinv
    | ends _ hnot => exact absurd hkept hnot
  | errno e =>
    cases hstep
    exact inv_errno h e
  | disconnect =>
    cases hstep
    exact inv_disconnect h

/-- **What the peer can do.** A connected transport is ended by failing receive calls and by its
user only, all along a run, exactly when every empty datagram finds `EWOULDBLOCK` in `errno`. -/
theorem kept_iff_quiet (fd : ℕ) (addrSend : InetAddr) (aSink errno : ℕ) (as : List Action) :
    Always step Kept (opened fd addrSend aSink errno) as ↔
      Admitted step Quiet (opened fd addrSend aSink errno) as :=
  always_iff_admitted (fun _ => kept_of_inv) (fun _ a h => step_kept_iff h a)
    (fun _ _ _ => inv_step) as (inv_opened fd addrSend aSink errno)

/-- One empty datagram, with nothing in `errno`. -/
theorem not_kept :
    step (opened 5 ⟨2, 90⟩ 0 0) (.input [⟨.returns 0, 0, false⟩]) =
        some ⟨⟨none, none, ⟨2, 90⟩, none⟩, false, 0, 1, false, false⟩ ∧
      ¬ Kept ⟨⟨none, none, ⟨2, 90⟩, none⟩, false, 0, 1, false, false⟩ :=
  ⟨rfl, fun h => absurd (h.silent rfl) (by decide)⟩

end VosStack.Udp.Connected
