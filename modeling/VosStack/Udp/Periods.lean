import VosStack.Table.Index
import VosStack.Udp.Acceptor

/-!
# Listening periods of a UDP acceptor

An acceptor can be stopped and started again, with the same address or another one. The transports
that it made in an earlier period are kept alive by their users. They hold a copy of the number of
the acceptor's descriptor, which `StopListen` closes, and `Disconnect` and the destructor ask the
acceptor to erase their entry, by the address of the peer alone.

`StopListen` empties the table but **does not tell the transports**. After it they keep the closed
number, which a later socket may get; and after the next `StartListen` a late `Disconnect` erases
the entry of a new transport of the same peer. Neither can happen in the runs in which `StopListen`
is called only when every transport has given its handle up, and these are all such runs: the
number is kept from the first other `StopListen` on.

A state is one acceptor with the table and its transports. The user's code runs in the callbacks
of `OnEpollInput`; what it calls there are steps of the run after the datagram, since `OnEpollInput`
does nothing more to this state then. Datagrams are read as long as there is a socket, whether or
not the acceptor is registered. A failing `StartListen` leaves its socket (`Reactor.Listen`). The
table holds a reference, so that a transport in it is not destroyed.
-/

namespace VosStack.Udp.Periods

open Transition Table

/-! ### The system -/

/-- Ghost: what happened, in order. -/
inductive Event
  /-- `StopListen` closes the descriptor; `n` transports were made before -/
  | stop (fd n : ℕ)
  /-- the transport `i` makes a socket call on the descriptor -/
  | use (i fd : ℕ)
  /-- at the request of the transport `i` the entry of the transport `j` is erased -/
  | erase (i j : ℕ)
  deriving DecidableEq, Repr

structure World where
  /-- `m_Socket.GetHandle()` of the acceptor, none for `-1` -/
  handle : Option ℕ
  /-- `m_AddrLocol` -/
  addrLocol : InetAddr
  /-- the flag of `CAWStopFlag` -/
  stopped : Bool
  /-- `s_pfsUdpTransports` -/
  table : CFSPairInetAddr → Option ℕ
  /-- the transports made so far have numbers below `next` -/
  transports : ℕ → Option CFSTransportUdp
  next : ℕ
  /-- ghost -/
  log : List Event

def init : World := ⟨none, ⟨0, 0⟩, true, fun _ => none, fun _ => none, 0, []⟩

/-- What a `StartListen` meets. -/
structure Attempt where
  /-- the descriptor of the socket, none if `CFSSocketUdp::Open` fails -/
  socket : Option ℕ
  /-- `RegisterHandler` succeeds -/
  register : Bool
  deriving DecidableEq, Repr

namespace World

/-- `CFSAcceptorUdp::StartListen`. -/
def startListen (w : World) (aAddrListen : InetAddr) (s : Attempt) : World :=
  match w.handle, s.socket with
  | some _, _ => w
  | none, none => w
  | none, some fd =>
    if s.register then { w with handle := some fd, addrLocol := aAddrListen, stopped := false }
    -- `StopListen` does nothing, since the flag is set
    else { w with handle := some fd }

/-- The entry is for the address the acceptor listens on. -/
def isLocal (w : World) (k : CFSPairInetAddr) : Bool :=
  k.dwIpDst == w.addrLocol.ip && k.wPortDst == w.addrLocol.port

/-- `CFSAcceptorUdp::StopListen`. -/
def stopListen (w : World) : World :=
  if w.stopped then w
  else
    { w with
      table := fun k => if w.isLocal k then none else w.table k
      handle := none
      stopped := true
      log := w.log ++ w.handle.toList.map fun fd => .stop fd w.next }

/-- `CFSAcceptorUdp::OnEpollInput`: a datagram of that peer. -/
def datagram (w : World) (fd : ℕ) (addrRecv : InetAddr) : World :=
  match w.table (.ofAddrs addrRecv w.addrLocol) with
  | some _ => w
  | none =>
    { w with
      transports := Function.update w.transports w.next (some ⟨some fd, some 0, addrRecv, none⟩)
      next := w.next + 1
      table := Function.update w.table (.ofAddrs addrRecv w.addrLocol) (some w.next) }

/-- `CFSAcceptorUdp::RemoveTransport`, called by the transport `i`, which is ignored. -/
def removeTransport (w : World) (aAddr : InetAddr) (i : ℕ) : World :=
  if w.stopped then w
  else
    { w with
      table := Function.update w.table (.ofAddrs aAddr w.addrLocol) none
      log := w.log ++ (w.table (.ofAddrs aAddr w.addrLocol)).toList.map fun j => .erase i j }

/-- `CFSTransportUdp::Close_t` and `Disconnect_t`, which do the same. -/
def close_t (w : World) (i : ℕ) (t : CFSTransportUdp) : World :=
  match t.handle with
  | none => w
  | some _ =>
    let w := w.removeTransport t.addrSend i
    { w with transports := Function.update w.transports i (some { t with handle := none }) }

def setSink (w : World) (i : ℕ) (sink : Option ℕ) : World :=
  { w with transports :=
      Function.update w.transports i ((w.transports i).map fun t => { t with sink }) }

end World

inductive Action
  | startListen (aAddrListen : InetAddr) (s : Attempt)
  | stopListen
  | datagram (addrRecv : InetAddr)
  | openWithSink (i aSink : ℕ)
  | disconnect (i : ℕ)
  /-- the destructor of a transport that is not in the table -/
  | destruct (i : ℕ)
  /-- a socket call through the transport -/
  | use (i : ℕ)
  deriving DecidableEq, Repr

def step (w : World) : Action → Option World
  | .startListen aAddrListen s => some (w.startListen aAddrListen s)
  | .stopListen => some w.stopListen
  | .datagram addrRecv => w.handle.map fun fd => w.datagram fd addrRecv
  | .openWithSink i aSink => (w.transports i).map fun _ => w.setSink i (some aSink)
  | .disconnect i => (w.transports i).map fun t => (w.close_t i t).setSink i none
  | .destruct i =>
    match w.transports i with
    | some t =>
      if w.table (.ofAddrs t.addrSend w.addrLocol) = some i then none
      else
        let w := w.close_t i t
        some { w with transports := Function.update w.transports i none }
    | none => none
  | .use i =>
    match w.transports i with
    | some ⟨some fd, _, _, _⟩ => some { w with log := w.log ++ [.use i fd] }
    | _ => none

/-! ### The contract -/

/-- A transport is removed at its own request only. -/
def Event.Own : Event → Prop
  | .erase i j => i = j
  | _ => True

/-- A transport made before a `StopListen` does not use the descriptor after it. -/
def Event.Before : Event → Event → Prop
  | .stop fd n, .use i fd' => i < n → fd' ≠ fd
  | _, _ => True

structure Separate (w : World) : Prop where
  own : ∀ e ∈ w.log, e.Own
  uses : w.log.Pairwise Event.Before
  keeps : ∀ fd n, .stop fd n ∈ w.log → ∀ i < n, ∀ t, w.transports i = some t → t.handle ≠ some fd

/-- The condition: a `StopListen` that takes effect finds no transport with a handle. -/
def Orderly (w : World) : Action → Prop
  | .stopListen => w.stopped = false → ∀ i t, w.transports i = some t → t.handle = none
  | _ => True

/-! ### The invariant -/

structure Inv (w : World) : Prop where
  own : ∀ e ∈ w.log, e.Own
  uses : w.log.Pairwise Event.Before
  /-- the transports of earlier periods have no handle -/
  gone : ∀ fd n, .stop fd n ∈ w.log →
    n ≤ w.next ∧ ∀ i < n, ∀ t, w.transports i = some t → t.handle = none
  /-- the others share the acceptor's -/
  shared : ∀ i t fd, w.transports i = some t → t.handle = some fd → w.handle = some fd
  started : w.stopped = false → w.handle.isSome
  /-- and are in the table -/
  entry : w.stopped = false → ∀ i t, w.transports i = some t → t.handle.isSome →
    w.table (.ofAddrs t.addrSend w.addrLocol) = some i
  born : ∀ i t, w.transports i = some t → i < w.next

theorem inv_init : Inv init where
  own _ h := absurd h List.not_mem_nil
  uses := .nil
  gone _ _ h := absurd h List.not_mem_nil
  shared _ _ _ h := nomatch h
  started h := nomatch h
  entry h := nomatch h
  born _ _ h := nomatch h

variable {w w' : World}

theorem Inv.separate (h : Inv w) : Separate w := by
  refine ⟨h.own, h.uses, fun fd n hstop i hi t ht hfd => ?_⟩
  rw [(h.gone fd n hstop).2 i hi t ht] at hfd
  contradiction

theorem Inv.handle_eq_none (h : Inv w) (hw : w.handle = none) {i : ℕ} {t : CFSTransportUdp}
    (ht : w.transports i = some t) : t.handle = none := by
  cases hfd : t.handle with
  | none => rfl
  | some fd =>
    rw [h.shared i t fd ht hfd] at hw
    contradiction

/-- In a period, two transports with handles have different peers. -/
theorem Inv.key_ne (h : Inv w) (hw : w.stopped = false) {i j : ℕ} {t u : CFSTransportUdp}
    (ht : w.transports i = some t) (hu : w.transports j = some u) (hti : t.handle.isSome)
    (huj : u.handle.isSome) (hne : j ≠ i) :
    CFSPairInetAddr.ofAddrs u.addrSend w.addrLocol ≠ .ofAddrs t.addrSend w.addrLocol := by
  intro hkey
  have hj := h.entry hw j u hu huj
  rw [hkey, h.entry hw i t ht hti] at hj
  exact hne (Option.some_inj.mp hj).symm

/-! ### Steps -/

theorem Inv.startListen (h : Inv w) (aAddrListen : InetAddr) (s : Attempt) :
    Inv (w.startListen aAddrListen s) := by
  unfold World.startListen
  split
  · exact h
  · exact h
  · next fd hw _ =>
    have hnone := fun i t ht => h.handle_eq_none hw (i := i) (t := t) ht
    have hstopped : w.stopped = true := by
      by_contra hne
      have hsome := h.started (eq_false_of_ne_true hne)
      rw [hw] at hsome
      contradiction
    split
    · refine ⟨h.own, h.uses, h.gone, ?_, fun _ => rfl, ?_, h.born⟩
      · intro i t fd' ht hfd
        rw [hnone i t ht] at hfd
        contradiction
      · intro _ i t ht hsome
        rw [hnone i t ht] at hsome
        contradiction
    · refine ⟨h.own, h.uses, h.gone, ?_, fun _ => rfl, ?_, h.born⟩
      · intro i t fd' ht hfd
        rw [hnone i t ht] at hfd
        contradiction
      · intro hnot
        rw [hstopped] at hnot
        contradiction

theorem Inv.stopListen (h : Inv w) (hok : Orderly w .stopListen) : Inv w.stopListen := by
  unfold World.stopListen
  split
  · exact h
  · next hstopped =>
    have hstopped := eq_false_of_ne_true hstopped
    have hnone := hok hstopped
    obtain ⟨fd, hfd⟩ := Option.isSome_iff_exists.mp (h.started hstopped)
    rw [hfd]
    constructor
    · exact (forall_mem_snoc_iff h.own).mpr trivial
    · exact pairwise_snoc h.uses fun x _ => by cases x <;> trivial
    · intro fd' n hstop
      rcases List.mem_append.mp hstop with hstop | hstop
      · exact h.gone fd' n hstop
      · cases List.mem_singleton.mp hstop
        exact ⟨Nat.le_refl _, fun i _ t ht => hnone i t ht⟩
    · intro i t fd' ht hfd'
      rw [hnone i t ht] at hfd'
      contradiction
    · exact nofun
    · exact nofun
    · exact h.born

/-- If no transport keeps the number, none had a handle. -/
theorem orderly_of_separate (h : Inv w) (hsep : Separate w.stopListen) :
    Orderly w .stopListen := by
  intro hstopped i t ht
  cases hfd : t.handle with
  | none => rfl
  | some fd =>
    have hlog : w.stopListen.log = w.log ++ [.stop fd w.next] := by
      rw [World.stopListen, if_neg (by rw [hstopped]; decide), h.shared i t fd ht hfd]
      rfl
    have htransports : w.stopListen.transports i = some t := by
      rw [World.stopListen, if_neg (by rw [hstopped]; decide)]
      exact ht
    refine absurd hfd (hsep.keeps fd w.next ?_ i (h.born i t ht) t htransports)
    rw [hlog]
    exact List.mem_append_right _ (List.mem_singleton_self _)

theorem Inv.datagram (h : Inv w) {fd : ℕ} (hfd : w.handle = some fd) (addrRecv : InetAddr) :
    Inv (w.datagram fd addrRecv) := by
  unfold World.datagram
  split
  · exact h
  · next hfree =>
    constructor
    · exact h.own
    · exact h.uses
    · intro fd' n hstop
      obtain ⟨hn, hgone⟩ := h.gone fd' n hstop
      refine ⟨Nat.le_succ_of_le hn, fun i hi t ht => ?_⟩
      rcases update_cases ht with ⟨rfl, _⟩ | ⟨_, ht⟩
      · exact absurd hi (Nat.not_lt.mpr hn)
      · exact hgone i hi t ht
    · intro i t fd' ht hfd'
      rcases update_cases ht with ⟨_, ⟨rfl⟩⟩ | ⟨_, ht⟩
      · exact hfd.trans hfd'
      · exact h.shared i t fd' ht hfd'
    · exact h.started
    · intro hstopped i t ht hsome
      rcases update_cases ht with ⟨rfl, ⟨rfl⟩⟩ | ⟨_, ht⟩
      · exact Function.update_self ..
      · have hold := h.entry hstopped i t ht hsome
        have hkey : CFSPairInetAddr.ofAddrs t.addrSend w.addrLocol ≠
            .ofAddrs addrRecv w.addrLocol := by
          intro hkey
          rw [hkey, hfree] at hold
          contradiction
        exact (Function.update_of_ne hkey _ _).trans hold
    · intro i t ht
      rcases update_cases ht with ⟨rfl, _⟩ | ⟨_, ht⟩
      · exact Nat.lt_succ_self _
      · exact Nat.lt_succ_of_lt (h.born i t ht)

/-- Transports give their handles up, or go. -/
theorem Inv.forget (h : Inv w) {es : List Event} (hhandle : w'.handle = w.handle)
    (hstopped : w'.stopped = w.stopped) (hnext : w'.next = w.next) (hlog : w'.log = w.log ++ es)
    (hes : ∀ e ∈ es, ∃ i, e = .erase i i)
    (htransports : ∀ i t, w'.transports i = some t →
      i < w.next ∧ (t.handle = none ∨ w.transports i = some t))
    (hentry : w.stopped = false → ∀ i t, w'.transports i = some t → t.handle.isSome →
      w'.table (.ofAddrs t.addrSend w'.addrLocol) = some i) : Inv w' := by
  constructor
  · rw [hlog]
    intro e he
    rcases List.mem_append.mp he with he | he
    · exact h.own e he
    · obtain ⟨i, rfl⟩ := hes e he
      rfl
  · rw [hlog, List.pairwise_append]
    refine ⟨h.uses, ?_, fun x _ y hy => ?_⟩
    · exact List.pairwise_of_forall_mem_list fun x _ y hy => by
        obtain ⟨i, rfl⟩ := hes y hy
        cases x <;> trivial
    · obtain ⟨i, rfl⟩ := hes y hy
      cases x <;> trivial
  · intro fd n hstop
    have hold : .stop fd n ∈ w.log := by
      rw [hlog] at hstop
      refine (List.mem_append.mp hstop).resolve_right fun he => ?_
      obtain ⟨i, hi⟩ := hes _ he
      contradiction
    obtain ⟨hn, hgone⟩ := h.gone fd n hold
    refine ⟨by rw [hnext]; exact hn, fun i hi t ht => ?_⟩
    exact (htransports i t ht).2.elim id (hgone i hi t)
  · intro i t fd ht hfd
    rw [hhandle]
    rcases (htransports i t ht).2 with hnone | hold
    · rw [hnone] at hfd
      contradiction
    · exact h.shared i t fd hold hfd
  · rw [hhandle, hstopped]
    exact h.started
  · rw [hstopped]
    exact hentry
  · intro i t ht
    rw [hnext]
    exact (htransports i t ht).1

/-- `Close_t` of a transport with a handle. -/
theorem close_t_eq {i fd : ℕ} {t : CFSTransportUdp} (hfd : t.handle = some fd) :
    w.close_t i t =
      { w.removeTransport t.addrSend i with
        transports := Function.update (w.removeTransport t.addrSend i).transports i
          (some { t with handle := none }) } := by
  rw [World.close_t, hfd]

/-- In a period, the transport finds its own entry. -/
theorem removeTransport_eq (h : Inv w) (hw : w.stopped = false) {i : ℕ} {t : CFSTransportUdp}
    (ht : w.transports i = some t) (hfd : t.handle.isSome) :
    w.removeTransport t.addrSend i =
      { w with
        table := Function.update w.table (.ofAddrs t.addrSend w.addrLocol) none
        log := w.log ++ [.erase i i] } := by
  rw [World.removeTransport, if_neg (by rw [hw]; decide), h.entry hw i t ht hfd]
  rfl

theorem removeTransport_of_stopped (hw : w.stopped = true) (aAddr : InetAddr) (i : ℕ) :
    w.removeTransport aAddr i = w := if_pos hw

/-- What `Close_t` leaves of the transports. -/
theorem transports_update {i j : ℕ} {t u : CFSTransportUdp} (h : Inv w)
    (ht : w.transports i = some t)
    (hu : Function.update w.transports i (some { t with handle := none }) j = some u) :
    j < w.next ∧ (u.handle = none ∨ j ≠ i ∧ w.transports j = some u) := by
  rcases update_cases hu with ⟨rfl, ⟨rfl⟩⟩ | ⟨hj, hu⟩
  · exact ⟨h.born j t ht, .inl rfl⟩
  · exact ⟨h.born j u hu, .inr ⟨hj, hu⟩⟩

theorem Inv.close_t (h : Inv w) {i : ℕ} {t : CFSTransportUdp} (ht : w.transports i = some t) :
    Inv (w.close_t i t) := by
  cases hfd : t.handle with
  | none =>
    rw [World.close_t, hfd]
    exact h
  | some fd =>
    rw [close_t_eq hfd]
    have hsome : t.handle.isSome := by rw [hfd]; rfl
    cases hw : w.stopped with
    | true =>
      rw [removeTransport_of_stopped hw]
      refine h.forget rfl rfl rfl (List.append_nil _).symm (fun _ he => nomatch he) ?_ ?_
      · intro j u hu
        obtain ⟨hj, hu⟩ := transports_update h ht hu
        exact ⟨hj, hu.imp_right And.right⟩
      · intro hnot
        rw [hw] at hnot
        contradiction
    | false =>
      rw [removeTransport_eq h hw ht hsome]
      refine h.forget rfl rfl rfl rfl (fun e he => ⟨i, List.mem_singleton.mp he⟩) ?_ ?_
      · intro j u hu
        obtain ⟨hj, hu⟩ := transports_update h ht hu
        exact ⟨hj, hu.imp_right And.right⟩
      · intro _ j u hu huj
        rcases (transports_update h ht hu).2 with hnone | ⟨hne, hu⟩
        · rw [hnone] at huj
          contradiction
        · have hkey := h.key_ne hw ht hu hsome huj hne
          exact (Function.update_of_ne hkey _ _).trans (h.entry hw j u hu huj)

/-- The sink of a transport does not matter. -/
theorem Inv.setSink (h : Inv w) (i : ℕ) (sink : Option ℕ) : Inv (w.setSink i sink) := by
  have hold : ∀ j u, (w.setSink i sink).transports j = some u →
      ∃ t, w.transports j = some t ∧ t.handle = u.handle ∧ t.addrSend = u.addrSend := by
    intro j u hu
    rcases update_cases hu with ⟨rfl, hmap⟩ | ⟨-, hu⟩
    · obtain ⟨t, ht, rfl⟩ := Option.map_eq_some_iff.mp hmap
      exact ⟨t, ht, rfl, rfl⟩
    · exact ⟨u, hu, rfl, rfl⟩
  refine ⟨h.own, h.uses, fun fd n hstop => ⟨(h.gone fd n hstop).1, fun j hj u hu => ?_⟩,
    fun j u fd hu hfd => ?_, h.started, fun hw j u hu huj => ?_, fun j u hu => ?_⟩
  · obtain ⟨t, ht, hhandle, -⟩ := hold j u hu
    rw [← hhandle]
    exact (h.gone fd n hstop).2 j hj t ht
  · obtain ⟨t, ht, hhandle, -⟩ := hold j u hu
    exact h.shared j t fd ht (hhandle.trans hfd)
  · obtain ⟨t, ht, hhandle, haddr⟩ := hold j u hu
    rw [← haddr]
    exact h.entry hw j t ht (hhandle ▸ huj)
  · obtain ⟨t, ht, -⟩ := hold j u hu
    exact h.born j t ht

theorem Inv.destruct (h : Inv w) (i : ℕ) :
    Inv { w with transports := Function.update w.transports i none } := by
  refine h.forget rfl rfl rfl (List.append_nil _).symm (fun _ he => nomatch he) ?_ ?_
  · intro j u hu
    rcases update_cases hu with ⟨_, hnone⟩ | ⟨_, hu⟩
    · contradiction
    · exact ⟨h.born j u hu, .inr hu⟩
  · intro hw j u hu huj
    rcases update_cases hu with ⟨_, hnone⟩ | ⟨_, hu⟩
    · contradiction
    · exact h.entry hw j u hu huj

theorem Inv.use (h : Inv w) {i fd : ℕ} {t : CFSTransportUdp} (ht : w.transports i = some t)
    (hfd : t.handle = some fd) : Inv { w with log := w.log ++ [.use i fd] } := by
  constructor
  · exact (forall_mem_snoc_iff h.own).mpr trivial
  · refine pairwise_snoc h.uses fun x hx => ?_
    cases x with
    | stop fd' n =>
      intro hi
      rw [(h.gone fd' n hx).2 i hi t ht] at hfd
      contradiction
    | use _ _ => trivial
    | erase _ _ => trivial
  · intro fd' n hstop
    refine h.gone fd' n ((List.mem_append.mp hstop).resolve_right fun he => ?_)
    cases List.mem_singleton.mp he
  · exact h.shared
  · exact h.started
  · exact h.entry
  · exact h.born

/-! ### Runs -/

theorem inv_step {a : Action} (h : Inv w) (hok : Orderly w a) (hstep : step w a = some w') :
    Inv w' := by
  cases a with
  | startListen aAddrListen s =>
    cases hstep
    exact h.startListen aAddrListen s
  | stopListen =>
    cases hstep
    exact h.stopListen hok
  | datagram addrRecv =>
    obtain ⟨fd, hfd, rfl⟩ := Option.map_eq_some_iff.mp hstep
    exact h.datagram hfd addrRecv
  | openWithSink i aSink =>
    obtain ⟨t, ht, rfl⟩ := Option.map_eq_some_iff.mp hstep
    exact h.setSink i (some aSink)
  | disconnect i =>
    obtain ⟨t, ht, rfl⟩ := Option.map_eq_some_iff.mp hstep
    exact (h.close_t ht).setSink i none
  | destruct i =>
    rw [step] at hstep
    split at hstep
    · next t ht =>
      rw [Option.ite_none_left_eq_some] at hstep
      cases hstep.2
      exact (h.close_t ht).destruct i
    · contradiction
  | use i =>
    rw [step] at hstep
    split at hstep
    · next fd _ _ _ ht =>
      cases hstep
      exact h.use ht rfl
    · contradiction

/-- A step is orderly exactly when the periods are separate after it. -/
theorem orderly_iff (h : Inv w) (a : Action) : Orderly w a ↔ ∀ w' ∈ step w a, Separate w' := by
  constructor
  · exact fun hok w' hw' => (inv_step h hok hw').separate
  · intro hsep
    cases a with
    | stopListen => exact orderly_of_separate h (hsep _ rfl)
    | _ => trivial

/-- **Sessions of different periods** do not touch each other all along a run exactly when every
`StopListen` of the run that takes effect finds no transport with a handle. -/
theorem separate_iff_orderly (as : List Action) :
    Always step Separate init as ↔ Admitted step Orderly init as := by
  refine always_iff_admitted (I := Inv) (fun _ h => h.separate) (fun _ a h => orderly_iff h a) ?_ as
    inv_init
  intro w a w' h hstep hsep
  refine inv_step h ((orderly_iff h a).mpr fun w'' hw'' => ?_) hstep
  rw [Option.some_inj.mp (hw''.symm.trans hstep)]
  exact hsep

/-- Stopped and started again on the same address, with one peer: the old transport keeps the
number 5, and its `Disconnect` erases the entry of the new one. -/
theorem not_separate :
    ∃ w, exec step init [.startListen ⟨1, 80⟩ ⟨some 5, true⟩, .datagram ⟨2, 90⟩, .stopListen,
        .startListen ⟨1, 80⟩ ⟨some 5, true⟩, .datagram ⟨2, 90⟩, .use 0, .disconnect 0] = some w ∧
      w.log = [.stop 5 1, .use 0 5, .erase 0 1] ∧ ¬ Separate w := by
  refine ⟨_, rfl, rfl, fun h => ?_⟩
  have hown : 0 = 1 := h.own (.erase 0 1) (by decide)
  exact Nat.zero_ne_one hown

end VosStack.Udp.Periods
