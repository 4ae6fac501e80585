import Mathlib.Logic.Function.Basic
import VosStack.Udp.Transport
import VosStack.Transition.Run

/-!
# The UDP acceptor and its session table

All UDP acceptors of the process keep their transports in one hash map, `s_pfsUdpTransports`, under
the address of the peer and the address the acceptor listens on. `OnEpollInput` reads a datagram,
looks for the pair, and makes a transport, puts it in the map and announces it with
`OnConnectIndication` when there is none; then the transport calls `OnReceive` of its sink.
`Disconnect` takes the transport out of the map again, by the address of its peer.

The callbacks are the user's code, which may call `OpenWithSink` and `Disconnect` on any transport.
So `OnEpollInput` is cut where it calls one: a state says in which callback the network thread is.
The map holds a reference of each transport in it; a transport that is not in the map may be
destroyed, by a timer, and its destructor calls `Close_t`.

A run is one listening period of every acceptor. No two of them listen on the same address:
`CFSSocketUdp::Open` binds without `SO_REUSEADDR`. `GetHashValue` is left out; it is a function of
the four numbers that `operator ==` compares. Failed and empty reads change nothing.
-/

namespace VosStack.Udp

/-! ### The table -/

structure CFSPairInetAddr where
  dwIpSrc : BitVec 32
  dwIpDst : BitVec 32
  wPortSrc : BitVec 16
  wPortDst : BitVec 16
  deriving DecidableEq, Repr

/-- `CFSPairInetAddr::CFSPairInetAddr(aSrc, aDst)`. -/
def CFSPairInetAddr.ofAddrs (aSrc aDst : InetAddr) : CFSPairInetAddr :=
  ⟨aSrc.ip, aDst.ip, aSrc.port, aDst.port⟩

theorem CFSPairInetAddr.ofAddrs_inj {s d s' d' : InetAddr} :
    ofAddrs s d = ofAddrs s' d' ↔ s = s' ∧ d = d' := by
  constructor
  · intro h
    obtain ⟨hip, hip', hport, hport'⟩ := CFSPairInetAddr.mk.inj h
    obtain ⟨_, _⟩ := s
    obtain ⟨_, _⟩ := d
    exact ⟨InetAddr.mk.injEq .. ▸ ⟨hip, hport⟩, InetAddr.mk.injEq .. ▸ ⟨hip', hport'⟩⟩
  · rintro ⟨rfl, rfl⟩
    rfl

/-! ### The system -/

/-- A listening `CFSAcceptorUdp`. -/
structure CFSAcceptorUdp where
  /-- `m_Socket.GetHandle()` -/
  handle : ℕ
  /-- `m_AddrLocol` -/
  addrLocol : InetAddr
  deriving DecidableEq, Repr

/-- The acceptors that listen. -/
structure Listening where
  acceptors : List CFSAcceptorUdp
  nodup : (acceptors.map CFSAcceptorUdp.addrLocol).Nodup

/-- `sizeof(szBuf)`. -/
def bufLen : ℕ := 1024 * 16

/-- Ghost: a datagram that was read, and the transports there were for its source then. -/
structure Arrival where
  acceptor : ℕ
  addrRecv : InetAddr
  data : Bytes
  /-- the undisconnected ones -/
  live : List ℕ
  /-- those of them that have a sink -/
  opened : List ℕ
  deriving DecidableEq, Repr

/-- Ghost: what happened, in order. Datagrams are numbered as they are read. -/
inductive Event
  /-- the transport `i` is made for the datagram `n` -/
  | create (i n : ℕ)
  /-- `OnConnectIndication` for the transport `i` -/
  | indication (i : ℕ)
  /-- `OnReceive` by the transport `i` for the datagram `n` -/
  | receive (i n : ℕ) (data : Bytes)
  /-- the datagram `n`, for which the transport `i` was made, is handled; `opened` says whether the
  transport was open and not disconnected when `OnConnectIndication` had returned -/
  | handled (i n : ℕ) (opened : Bool)
  deriving DecidableEq, Repr

/-- Where the network thread is. -/
inductive Pc
  | idle
  /-- in `OnConnectIndication` for `i`, with the datagram `n` in `szBuf` -/
  | indication (i n : ℕ) (data : Bytes)
  /-- in `OnReceive` -/
  | receive
  deriving DecidableEq, Repr

structure World where
  /-- the transports made so far have numbers below `next` -/
  transports : ℕ → Option CFSTransportUdp
  next : ℕ
  /-- `s_pfsUdpTransports` -/
  table : CFSPairInetAddr → Option ℕ
  pc : Pc
  /-- ghost: `Disconnect` was called -/
  disconnected : ℕ → Bool
  /-- ghost -/
  arrivals : List Arrival
  /-- ghost -/
  log : List Event

def init : World := ⟨fun _ => none, 0, fun _ => none, .idle, fun _ => false, [], []⟩

namespace World

/-- The transport `i` was made for that peer and is not disconnected. -/
def undisconnected (w : World) (acc : ℕ) (addr : InetAddr) (i : ℕ) : Bool :=
  match w.transports i with
  | some t => decide (t.acceptor = some acc ∧ t.addrSend = addr) && !w.disconnected i
  | none => false

/-- It has a sink. -/
def opened (w : World) (i : ℕ) : Bool := ((w.transports i).bind CFSTransportUdp.sink).isSome

def arrival (w : World) (acc : ℕ) (addrRecv : InetAddr) (data : Bytes) : Arrival :=
  let live := (List.range w.next).filter (w.undisconnected acc addrRecv)
  ⟨acc, addrRecv, data, live, live.filter w.opened⟩

/-- `CFSTransportUdp::OnReceiveCallback`. -/
def onReceiveCallback (w : World) (i n : ℕ) (data : Bytes) : World :=
  if w.opened i then { w with pc := .receive, log := w.log ++ [.receive i n data] }
  else { w with pc := .idle }

def note (w : World) (e : Event) : World := { w with log := w.log ++ [e] }

/-- `CFSAcceptorUdp::RemoveTransport`: the entry of the address is erased, whatever transport it
holds. -/
def removeTransport (w : World) (a : CFSAcceptorUdp) (aAddr : InetAddr) : World :=
  { w with table := Function.update w.table (.ofAddrs aAddr a.addrLocol) none }

/-- `CFSTransportUdp::Close_t` and `Disconnect_t`, which do the same to an acceptor's transport. -/
def close_t (L : Listening) (w : World) (i : ℕ) (t : CFSTransportUdp) : World :=
  match t.handle, t.acceptor.bind (L.acceptors[·]?) with
  | some _, some a =>
    { w.removeTransport a t.addrSend with
      transports := Function.update w.transports i (some { t with handle := none }) }
  | _, _ => w

/-- `CFSTransportBase::Disconnect`, after `Disconnect_t`. -/
def clearSink (w : World) (i : ℕ) : World :=
  { w with
    transports := Function.update w.transports i
      ((w.transports i).map fun t => { t with sink := none })
    disconnected := Function.update w.disconnected i true }

end World

inductive Action
  /-- `RecvFrom` of the acceptor `acc` gives a datagram -/
  | recv (acc : ℕ) (addrRecv : InetAddr) (data : Bytes)
  /-- `OnConnectIndication` returns -/
  | indicated
  /-- `OnReceive` returns -/
  | received
  | openWithSink (i aSink : ℕ)
  | disconnect (i : ℕ)
  /-- the destructor of a transport that is not in the table -/
  | destruct (i : ℕ)
  deriving DecidableEq, Repr

def step (L : Listening) (w : World) : Action → Option World
  | .recv acc addrRecv data =>
    match w.pc, L.acceptors[acc]? with
    | .idle, some a =>
      let n := w.arrivals.length
      let szBuf := data.take bufLen
      let w' := { w with arrivals := w.arrivals ++ [w.arrival acc addrRecv data] }
      match w.table (.ofAddrs addrRecv a.addrLocol) with
      | some i => some (w'.onReceiveCallback i n szBuf)
      | none =>
        some { w' with
          transports := Function.update w.transports w.next
            (some ⟨some a.handle, some acc, addrRecv, none⟩)
          next := w.next + 1
          table := Function.update w.table (.ofAddrs addrRecv a.addrLocol) (some w.next)
          pc := .indication w.next n szBuf
          log := w.log ++ [.create w.next n, .indication w.next] }
    | _, _ => none
  | .indicated =>
    match w.pc with
    | .indication i n szBuf =>
      some ((w.onReceiveCallback i n szBuf).note (.handled i n (w.opened i && !w.disconnected i)))
    | _ => none
  | .received =>
    match w.pc with
    | .receive => some { w with pc := .idle }
    | _ => none
  | .openWithSink i aSink =>
    match w.transports i with
    | some t =>
      -- `Open_t` has nothing to do for an acceptor's transport
      some { w with transports := Function.update w.transports i (some { t with sink := aSink }) }
    | none => none
  | .disconnect i =>
    match w.transports i with
    | some t => some ((w.close_t L i t).clearSink i)
    | none => none
  | .destruct i =>
    match w.pc, w.transports i with
    | .idle, some t =>
      -- an entry of the table would be a reference
      match t.acceptor.bind (L.acceptors[·]?) with
      | some a =>
        if w.table (.ofAddrs t.addrSend a.addrLocol) = some i then none else some (w.close_t L i t)
      | none => none
    | _, _ => none

end VosStack.Udp
