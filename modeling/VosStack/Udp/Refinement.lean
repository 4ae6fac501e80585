import VosStack.Reactor.Listen
import VosStack.Udp.Periods

/-!
# The models of the UDP acceptor agree

The acceptor is modelled three times, each time with what one question needs. `Reactor.Listen` has
its socket, its sink and the bindings of the reactor, and no sessions. `Udp.Acceptor` has the
callbacks of one listening period of all acceptors. `Udp.Periods` has one acceptor that is stopped
and started again, without the callbacks. The last one is between the others:

* `StartListen` and `StopListen` of `Reactor.Listen` are those of a period (`Listens`), for some
  answers of the kernel;
* a run of `Udp.Acceptor` with one acceptor is followed by a run of one period
  (`reach_periods`), so what is known of the periods holds in it: a transport with a handle has the
  descriptor of the acceptor, and is in the table (`shared_of_reachable`).
-/

namespace VosStack.Udp

open Transition

/-! ### Starting and stopping -/

/-- The acceptor of the period is `x`. -/
structure Listens (x : Listen.CFSAcceptorUdp) (v : Periods.World) : Prop where
  handle : x.handle = v.handle.elim (-1) Nat.cast
  addrLocol : ∀ addr, x.addrLocol = some addr → v.addrLocol = addr
  stopped : x.stopped = v.stopped
  started : x.stopped = false → x.handle ≠ -1

theorem listens_init (eh : ℕ) : Listens ⟨eh, -1, none, none, true⟩ Periods.init :=
  ⟨rfl, nofun, rfl, nofun⟩

section listens

variable {x : Listen.CFSAcceptorUdp} {v : Periods.World}

theorem Listens.handle_eq_none (h : Listens x v) (hx : x.handle = -1) : v.handle = none := by
  cases hv : v.handle with
  | none => rfl
  | some fd =>
    have hfd : x.handle = fd := by rw [h.handle, hv]; rfl
    omega

theorem Listens.handle_eq_some (h : Listens x v) (hx : x.handle ≠ -1) :
    ∃ fd, v.handle = some fd := by
  refine Option.ne_none_iff_exists'.mp fun hv => hx ?_
  rw [h.handle, hv]
  rfl

theorem Listens.stopListen (h : Listens x v) (M : Handlers.Masks) (w : Handlers.World) :
    Listens (x.stopListen M w).2 v.stopListen := by
  rw [Listen.CFSAcceptorUdp.stopListen, Periods.World.stopListen, ← h.stopped]
  cases hx : x.stopped with
  | true => exact h
  | false =>
    rw [if_neg Bool.false_ne_true, if_neg Bool.false_ne_true, if_pos (h.started hx)]
    exact ⟨rfl, h.addrLocol, rfl, fun hnot => Bool.noConfusion hnot⟩

/-- A new descriptor is not negative. -/
theorem openBound_nonneg (w : Handlers.World) (s : Listen.Attempt) :
    (Listen.CFSAcceptorUdp.openBound w s).2 = -1 ∨
      0 ≤ (Listen.CFSAcceptorUdp.openBound w s).2 := by
  rw [Listen.CFSAcceptorUdp.openBound]
  rcases Listen.openSocket_cases w s with hopen | ⟨fd, -, hfd, -, hopen⟩
  · rw [hopen]
    exact .inl rfl
  · rw [hopen]
    dsimp only
    split
    · exact .inl rfl
    split
    · exact .inl rfl
    · exact .inr hfd

/-- **`StartListen`** is the one of a period, whichever of its steps fails. -/
theorem Listens.startListen (h : Listens x v) (M : Handlers.Masks) (w : Handlers.World)
    (aSink : Option ℕ) (aAddrListen : InetAddr) (s : Listen.Attempt) :
    ∃ s', Listens (x.startListen M w aSink aAddrListen s).2.1 (v.startListen aAddrListen s') := by
  by_cases hx : x.handle = -1
  · have hv := h.handle_eq_none hx
    have hstopped : x.stopped = true := by
      by_contra hne
      exact h.started (eq_false_of_ne_true hne) hx
    -- without a socket nothing changes
    have hsame : v.startListen aAddrListen ⟨none, false⟩ = v := by
      rw [Periods.World.startListen, hv]
    rw [Listen.CFSAcceptorUdp.startListen, if_neg (not_not.mpr hx)]
    split
    · exact ⟨⟨none, false⟩, hsame.symm ▸ h⟩
    · have hfd := openBound_nonneg w s
      generalize Listen.CFSAcceptorUdp.openBound w s = opened at hfd ⊢
      obtain ⟨w₁, fd⟩ := opened
      dsimp only at hfd ⊢
      split
      · next hnone =>
        rw [Listen.CFSAcceptorUdp.fail_of_stopped (a := { x with handle := fd, sink := aSink })
          hstopped]
        refine ⟨⟨none, false⟩, hsame.symm ▸ ⟨?_, h.addrLocol, h.stopped, ?_⟩⟩
        · rw [hv]
          exact hnone
        · exact fun hnot => absurd (hstopped.symm.trans hnot) (by decide)
      · next hne =>
        obtain ⟨n, rfl⟩ := Int.eq_ofNat_of_zero_le (hfd.resolve_left hne)
        split
        · rw [Listen.CFSAcceptorUdp.fail_of_stopped (a := { x with handle := n, sink := aSink })
            hstopped]
          refine ⟨⟨some n, false⟩, ?_⟩
          rw [Periods.World.startListen, hv]
          exact ⟨rfl, h.addrLocol, h.stopped, fun _ => hne⟩
        · refine ⟨⟨some n, true⟩, ?_⟩
          rw [Periods.World.startListen, hv]
          exact ⟨rfl, fun addr haddr => Option.some.inj haddr, rfl, fun _ => hne⟩
  · obtain ⟨fd, hfd⟩ := h.handle_eq_some hx
    refine ⟨⟨none, false⟩, ?_⟩
    rw [Listen.CFSAcceptorUdp.startListen_of_open hx, Periods.World.startListen, hfd]
    exact h

end listens

/-! ### One period -/

/-- A transport of the one acceptor, and the same transport in the period, where it is gone after it
was destroyed; it has given its handle up then. -/
inductive Tracks : Option CFSTransportUdp → Option CFSTransportUdp → Prop
  | none : Tracks none none
  | same {t : CFSTransportUdp} (hacc : t.acceptor = some 0) : Tracks (some t) (some t)
  | gone {t : CFSTransportUdp} (hacc : t.acceptor = some 0) (hhandle : t.handle = none) :
      Tracks (some t) none

theorem Tracks.setSink {o o' : Option CFSTransportUdp} (h : Tracks o o') (sink : Option ℕ) :
    Tracks (o.map fun t => { t with sink }) (o'.map fun t => { t with sink }) := by
  cases h with
  | none => exact .none
  | same hacc => exact .same hacc
  | gone hacc hhandle => exact .gone hacc hhandle

/-- What a world with the one acceptor `a` is in its period. -/
structure Projects (a : CFSAcceptorUdp) (w : World) (v : Periods.World) : Prop where
  handle : v.handle = some a.handle
  addrLocol : v.addrLocol = a.addrLocol
  stopped : v.stopped = false
  table : v.table = w.table
  next : v.next = w.next
  transports : ∀ i, Tracks (w.transports i) (v.transports i)

/-- The acceptor `a` alone. -/
def Listening.one (a : CFSAcceptorUdp) : Listening where
  acceptors := [a]
  nodup := List.pairwise_singleton _ _

/-- The period that begins with a `StartListen` of `a`. -/
def Periods.World.started (a : CFSAcceptorUdp) : Periods.World :=
  Periods.init.startListen a.addrLocol ⟨some a.handle, true⟩

theorem projects_started (a : CFSAcceptorUdp) : Projects a init (.started a) :=
  ⟨rfl, rfl, rfl, rfl, rfl, fun _ => .none⟩

variable {a : CFSAcceptorUdp} {w w' : World} {v : Periods.World} {i : ℕ} {t : CFSTransportUdp}

/-- The callbacks and the log are not part of a period. -/
theorem Projects.congr (h : Projects a w v) (htable : w'.table = w.table)
    (hnext : w'.next = w.next) (htransports : w'.transports = w.transports) : Projects a w' v :=
  ⟨h.handle, h.addrLocol, h.stopped, h.table.trans htable.symm, h.next.trans hnext.symm,
    htransports ▸ h.transports⟩

/-- One transport changes, in both worlds or in one of them. -/
theorem Projects.update (h : Projects a w v) {o o' : Option CFSTransportUdp} (ho : Tracks o o') :
    Projects a { w with transports := Function.update w.transports i o }
      { v with transports := Function.update v.transports i o' } := by
  refine ⟨h.handle, h.addrLocol, h.stopped, h.table, h.next, fun j => ?_⟩
  dsimp only
  by_cases hj : j = i
  · subst hj
    rw [Function.update_self, Function.update_self]
    exact ho
  · rw [Function.update_of_ne hj, Function.update_of_ne hj]
    exact h.transports j

theorem Projects.update_left (h : Projects a w v) {o : Option CFSTransportUdp}
    (ho : Tracks o (v.transports i)) :
    Projects a { w with transports := Function.update w.transports i o } v := by
  have hboth := h.update (i := i) ho
  rw [Function.update_eq_self] at hboth
  exact hboth

theorem Projects.update_right (h : Projects a w v) {o : Option CFSTransportUdp}
    (ho : Tracks (w.transports i) o) :
    Projects a w { v with transports := Function.update v.transports i o } := by
  have hboth := h.update (i := i) ho
  rw [Function.update_eq_self] at hboth
  exact hboth

theorem close_t_of_handle_eq_none (L : Listening) (ht : t.handle = none) : w.close_t L i t = w := by
  rw [World.close_t, ht]

/-- `Close_t` erases the same entry and takes the same handle. -/
theorem Projects.close_t (h : Projects a w v) (hacc : t.acceptor = some 0) :
    Projects a (w.close_t (.one a) i t) (v.close_t i t) := by
  cases hfd : t.handle with
  | none =>
    rw [close_t_of_handle_eq_none _ hfd, Periods.World.close_t, hfd]
    exact h
  | some fd =>
    have hremoved :
        Projects a (w.removeTransport a t.addrSend) (v.removeTransport t.addrSend i) := by
      rw [Periods.World.removeTransport, if_neg (by rw [h.stopped]; exact Bool.false_ne_true)]
      refine ⟨h.handle, h.addrLocol, h.stopped, ?_, h.next, h.transports⟩
      dsimp only [World.removeTransport]
      rw [h.table, h.addrLocol]
    rw [Periods.close_t_eq hfd, World.close_t, hfd, hacc]
    exact hremoved.update (.same rfl)

/-- Whether or not it had one, the transport has no handle then. -/
theorem transports_close_t (ht : w.transports i = some t) (hacc : t.acceptor = some 0) :
    (w.close_t (.one a) i t).transports i = some { t with handle := none } := by
  cases hfd : t.handle with
  | none =>
    rw [close_t_of_handle_eq_none _ hfd, ht, ← hfd]
  | some fd =>
    rw [World.close_t, hfd, hacc]
    exact Function.update_self ..

theorem Projects.datagram (h : Projects a w v) {fd : ℕ} (hfd : fd = a.handle) (addrRecv : InetAddr)
    (hfree : w.table (.ofAddrs addrRecv a.addrLocol) = none) :
    Projects a
      { w with
        transports := Function.update w.transports w.next
          (some ⟨some a.handle, some 0, addrRecv, none⟩)
        next := w.next + 1
        table := Function.update w.table (.ofAddrs addrRecv a.addrLocol) (some w.next) }
      (v.datagram fd addrRecv) := by
  subst hfd
  rw [Periods.World.datagram, h.addrLocol, h.table, hfree, h.next]
  exact ⟨h.handle, rfl, h.stopped, rfl, rfl, (h.update (.same rfl)).transports⟩

/-! ### Steps and runs -/

/-- The period is in a state that projects the world, after some steps or none. -/
def Follows (a : CFSAcceptorUdp) (v : Periods.World) (w' : World) : Prop :=
  ∃ v', Reach Periods.step Periods.Orderly v v' ∧ Projects a w' v'

theorem Projects.follows (h : Projects a w v) : Follows a v w := ⟨v, .refl, h⟩

theorem follows_of_step (act : Periods.Action) {v' : Periods.World} (hok : Periods.Orderly v act)
    (hstep : Periods.step v act = some v') (h : Projects a w v') : Follows a v w :=
  ⟨v', .tail .refl hok hstep, h⟩

theorem Projects.onReceiveCallback (h : Projects a w v) (i n : ℕ) (data : Bytes) :
    Projects a (w.onReceiveCallback i n data) v := by
  rw [World.onReceiveCallback]
  split <;> exact h.congr rfl rfl rfl

theorem Projects.recv (h : Projects a w v) {acc : ℕ} {addrRecv : InetAddr} {data : Bytes}
    (hstep : step (.one a) w (.recv acc addrRecv data) = some w') : Follows a v w' := by
  rw [step] at hstep
  split at hstep
  · next a' _ hacc =>
    have hone : [a][acc]? = some a' := hacc
    rw [List.getElem?_singleton] at hone
    obtain ⟨rfl, ⟨rfl⟩⟩ := Option.ite_none_right_eq_some.mp hone
    split at hstep
    · cases hstep
      refine Projects.follows (Projects.onReceiveCallback ?_ _ _ _)
      exact h.congr rfl rfl rfl
    · next hfree =>
      cases hstep
      refine follows_of_step (.datagram addrRecv) trivial ?_
        ((h.datagram rfl addrRecv hfree).congr rfl rfl rfl)
      rw [Periods.step, h.handle]
      rfl
  · contradiction

theorem Projects.disconnect (h : Projects a w v)
    (hstep : step (.one a) w (.disconnect i) = some w') : Follows a v w' := by
  rw [step] at hstep
  split at hstep
  · next t ht =>
    cases hstep
    have hi := h.transports i
    rw [ht] at hi
    generalize hv : v.transports i = o at hi
    cases hi with
    | same hacc =>
      have hclosed := h.close_t (i := i) hacc
      refine follows_of_step (.disconnect i) trivial (by rw [Periods.step, hv]; rfl) ?_
      exact (hclosed.update ((hclosed.transports i).setSink none)).congr rfl rfl rfl
    | gone hacc hhandle =>
      rw [close_t_of_handle_eq_none _ hhandle]
      refine Projects.follows (Projects.congr (h.update_left (i := i)
        (o := (w.transports i).map fun t => { t with sink := none }) ?_) rfl rfl rfl)
      rw [ht, hv]
      exact .gone hacc hhandle
  · contradiction

theorem Projects.openWithSink (h : Projects a w v) {aSink : ℕ}
    (hstep : step (.one a) w (.openWithSink i aSink) = some w') : Follows a v w' := by
  rw [step] at hstep
  split at hstep
  · next t ht =>
    cases hstep
    have hi := h.transports i
    rw [ht] at hi
    generalize hv : v.transports i = o at hi
    cases hi with
    | same hacc =>
      refine follows_of_step (.openWithSink i aSink) trivial
        (by rw [Periods.step, hv]; rfl) (h.update ?_)
      rw [hv]
      exact .same hacc
    | gone hacc hhandle =>
      refine (h.update_left ?_).follows
      rw [hv]
      exact .gone hacc hhandle
  · contradiction

theorem Projects.destruct (h : Projects a w v)
    (hstep : step (.one a) w (.destruct i) = some w') : Follows a v w' := by
  rw [step] at hstep
  split at hstep
  · next t _ ht =>
    have hi := h.transports i
    rw [ht] at hi
    generalize hv : v.transports i = o at hi
    have hacc : t.acceptor = some 0 := by cases hi <;> assumption
    rw [hacc] at hstep
    obtain ⟨hout, ⟨rfl⟩⟩ := Option.ite_none_left_eq_some.mp hstep
    cases hi with
    | same _ =>
      refine follows_of_step (.destruct i) trivial ?_
        ((h.close_t hacc).update_right (i := i) (o := none) ?_)
      · rw [Periods.step, hv]
        dsimp only
        rw [h.table, h.addrLocol]
        exact if_neg hout
      · rw [transports_close_t ht hacc]
        exact .gone hacc rfl
    | gone _ hhandle =>
      rw [close_t_of_handle_eq_none _ hhandle]
      exact h.follows
  · contradiction

/-- What the one acceptor does is done in its period, where no `StopListen` is called. -/
theorem Projects.step (h : Projects a w v) {act : Action} (hstep : step (.one a) w act = some w') :
    Follows a v w' := by
  cases act with
  | recv acc addrRecv data => exact h.recv hstep
  | indicated =>
    rw [Udp.step] at hstep
    split at hstep
    · cases hstep
      exact Projects.follows ((h.onReceiveCallback _ _ _).congr rfl rfl rfl)
    · contradiction
  | received =>
    rw [Udp.step] at hstep
    split at hstep
    · cases hstep
      exact Projects.follows (h.congr rfl rfl rfl)
    · contradiction
  | openWithSink i aSink => exact h.openWithSink hstep
  | disconnect i => exact h.disconnect hstep
  | destruct i => exact h.destruct hstep

/-- **One acceptor in one period.** Every run of the sessions of one acceptor is followed by an
orderly run of its periods. -/
theorem reach_periods (h : Reachable (step (.one a)) init w) :
    ∃ v, Reach Periods.step Periods.Orderly Periods.init v ∧ Projects a w v := by
  obtain ⟨v, hreach, hv⟩ := h.simulate (R := Projects a) (projects_started a)
    fun _ _ _ _ hr _ hs => hr.step hs
  refine ⟨v, .head (a := .startListen a.addrLocol ⟨some a.handle, true⟩) ?_ rfl hreach, hv⟩
  exact trivial

/-- So a transport with a handle has the descriptor of the acceptor, and is in the table. -/
theorem shared_of_reachable (h : Reachable (step (.one a)) init w) (ht : w.transports i = some t)
    {fd : ℕ} (hfd : t.handle = some fd) :
    fd = a.handle ∧ w.table (.ofAddrs t.addrSend a.addrLocol) = some i := by
  obtain ⟨v, hreach, hv⟩ := reach_periods h
  have hinv : Periods.Inv v := hreach.induct Periods.inv_init fun _ _ _ => Periods.inv_step
  have hi := hv.transports i
  rw [ht] at hi
  generalize hvi : v.transports i = o at hi
  cases hi with
  | same _ =>
    have hsome : t.handle.isSome := by rw [hfd]; rfl
    refine ⟨Option.some.inj ((hinv.shared i t fd hvi hfd).symm.trans hv.handle), ?_⟩
    rw [← hv.table, ← hv.addrLocol]
    exact hinv.entry hv.stopped i t hvi hsome
  | gone _ hhandle => exact absurd (hfd.symm.trans hhandle) nofun

end VosStack.Udp
