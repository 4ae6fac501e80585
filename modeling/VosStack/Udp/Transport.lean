import Mathlib.Algebra.Ring.Nat
import Mathlib.Data.Int.Notation
import VosStack.Basic
import VosStack.MessageBlock

/-!
# The UDP transport: one call, one datagram

`CFSTransportUdp::SendData` is the send loop of the stream transport. It fills a vector with at
most `CAW_IOV_MAX` blocks of the chain, sends the vector, advances the chain by the result and
goes on while bytes are left. A connected transport sends with `SendV`, a transport made by the
acceptor with `SendVTo`.

Datagram boundaries are kept **exactly when** the socket is closed already, or the transport is
connected and the first vector takes all of a non-empty chain. Otherwise:

* `CFSSocketUdp::SendVTo` has no call in its body. It returns a variable that was never assigned,
  so nothing is sent, and whatever the variable holds is taken for the result of the socket.
* A chain of which `FillIov` takes only a front becomes several datagrams. If a later one fails,
  the call fails after the earlier ones were sent.
* An empty chain gives `CAW_OK` and no datagram.

The chains are those of any `MessageBlock`. `CAW_IOV_MAX` is a parameter too.
-/

namespace VosStack.Udp

/-- An IPv4 address and a port, as a `CAWInetAddr` holds them. -/
structure InetAddr where
  ip : BitVec 32
  port : BitVec 16
  deriving DecidableEq, Repr

/-! ### The socket -/

inductive Errno
  | ewouldblock
  | eagain
  | other
  deriving DecidableEq, Repr

/-- What one call on the socket meets. -/
structure Answer where
  /-- `vos_sock_writev` sends the datagram -/
  sent : Bool
  errno : Errno
  /-- what an unassigned `int` holds at that moment -/
  nRet : BitVec 32
  deriving DecidableEq, Repr

structure Datagram where
  dest : InetAddr
  data : Bytes
  deriving DecidableEq, Repr

/-- `CFSSocketBase::SendV` on a socket that is connected to `peer`: the whole vector is one
datagram. -/
def sendV (peer : InetAddr) (aIov : List Bytes) (a : Answer) : ℤ × List Datagram :=
  if a.sent then (aIov.flatten.length, [⟨peer, aIov.flatten⟩]) else (-1, [])

/-- `CFSSocketUdp::SendVTo`: no call is made, and `nRet` is returned unassigned. -/
def sendVTo (_aIov : List Bytes) (_aAddr : InetAddr) (a : Answer) : ℤ × List Datagram :=
  (a.nRet.toInt, [])

/-! ### The transport -/

/-- The state of a `CFSTransportUdp`. -/
structure CFSTransportUdp where
  /-- `m_SocketUdp.GetHandle()`, `none` for `-1` -/
  handle : Option ℕ
  /-- `m_pAcceptor` -/
  acceptor : Option ℕ
  /-- `m_AddrSend`, the peer -/
  addrSend : InetAddr
  /-- `m_pSink` -/
  sink : Option ℕ
  deriving DecidableEq, Repr

/-- The outcome of a `SendData` call. -/
structure SendResult (C : Type*) where
  rv : CAWResult
  /-- what is left of the chain -/
  rest : C
  /-- `aPara->m_dwHaveSent`, if there is an `aPara` -/
  haveSent : Option (BitVec 32)
  /-- ghost: the datagrams that were sent -/
  datagrams : List Datagram
  deriving DecidableEq, Repr

namespace CFSTransportUdp

variable {C : Type*}

/-- The socket call of the loop. -/
def send (t : CFSTransportUdp) (iov : List Bytes) (a : Answer) : ℤ × List Datagram :=
  if t.acceptor.isSome then sendVTo iov t.addrSend a else sendV t.addrSend iov a

section calls

variable (B : MessageBlock C UInt8) (iovMax : ℕ) (t : CFSTransportUdp)

/-- The `while` loop of `SendData`, one answer for each round; none when it is still running
after the last one. -/
def sendLoop (answers : List Answer) (aData : C) (aPara : Option (BitVec 32)) :
    Option (SendResult C) :=
  if B.getChainedLength aData = 0 then some ⟨.ok, aData, aPara, []⟩
  else if (B.fillIov aData iovMax).length = 0 then some ⟨.ok, aData, aPara, []⟩
  else
    match answers with
    | [] => none
    | a :: answers =>
      let (nSend, out) := t.send (B.fillIov aData iovMax) a
      if nSend < 0 then
        if a.errno = .ewouldblock ∨ a.errno = .eagain then
          -- `bhight` is never set
          some ⟨.partialData, aData, aPara, out⟩
        else some ⟨.networkSocketError, aData, aPara, out⟩
      else
        (sendLoop answers (B.advanceChainedReadPtr nSend.toNat aData)
          (aPara.map (· + BitVec.ofInt 32 nSend))).map
          fun r => { r with datagrams := out ++ r.datagrams }

/-- `CFSTransportUdp::SendData`. -/
def sendData (answers : List Answer) (aData : C) (aPara : Option (BitVec 32)) :
    Option (SendResult C) :=
  if t.handle = none then some ⟨.notInitialized, aData, aPara, []⟩
  else sendLoop B iovMax t answers aData aPara

/-! ### One datagram -/

/-- The outcome that a datagram socket promises: one datagram with the whole chain for the peer,
or an error and nothing sent; and the count of bytes. -/
structure Delivers (aData : C) (aPara : Option (BitVec 32)) (r : SendResult C) : Prop where
  sent : r.rv = .ok → r.datagrams = [⟨t.addrSend, B.data aData⟩]
  failed : r.rv ≠ .ok → r.datagrams = []
  count : r.haveSent =
    aPara.map (· + BitVec.ofNat 32 (r.datagrams.map fun d => d.data.length).sum)

/-- The contract: whatever the socket answers, a call that returns delivers. -/
def SendOk (aData : C) : Prop :=
  ∀ answers aPara r, sendData B iovMax t answers aData aPara = some r → Delivers B t aData aPara r

/-- The loop has bytes to send and a vector to send. -/
def Goes (aData : C) : Prop :=
  B.getChainedLength aData ≠ 0 ∧ (B.fillIov aData iovMax).length ≠ 0

end calls

section

variable {B : MessageBlock C UInt8} {iovMax : ℕ} {t : CFSTransportUdp} {aData : C}
  {aPara : Option (BitVec 32)}

/-- Nothing is sent and nothing counted. -/
theorem delivers_nothing {rv : CAWResult} {rest : C} (h : rv ≠ .ok) :
    Delivers B t aData aPara ⟨rv, rest, aPara, []⟩ := by
  refine ⟨fun hok => absurd hok h, fun _ => rfl, ?_⟩
  change aPara = aPara.map (· + 0#32)
  simp only [BitVec.add_zero, Option.map_id']

theorem sendLoop_of_not_goes (answers : List Answer) (h : ¬ Goes B iovMax aData) :
    sendLoop B iovMax t answers aData aPara = some ⟨.ok, aData, aPara, []⟩ := by
  rw [sendLoop.eq_def]
  rcases Classical.not_and_iff_not_or_not.mp h with h | h
  · rw [if_pos (not_not.mp h)]
  · rw [if_pos (not_not.mp h), ite_self]

theorem sendLoop_of_empty (answers : List Answer) (h : B.data aData = []) :
    sendLoop B iovMax t answers aData aPara = some ⟨.ok, aData, aPara, []⟩ := by
  refine sendLoop_of_not_goes answers fun hg => hg.1 ?_
  rw [B.getChainedLength_eq, h, List.length_nil]

theorem sendLoop_nil (h : Goes B iovMax aData) : sendLoop B iovMax t [] aData aPara = none := by
  rw [sendLoop, if_neg h.1, if_neg h.2]

/-- A round in which the socket call fails. -/
theorem sendLoop_cons_of_neg (h : Goes B iovMax aData) {a : Answer} (answers : List Answer)
    {nSend : ℤ} {out : List Datagram} (hsend : t.send (B.fillIov aData iovMax) a = (nSend, out))
    (hneg : nSend < 0) :
    ∃ rv, rv ≠ .ok ∧
      sendLoop B iovMax t (a :: answers) aData aPara = some ⟨rv, aData, aPara, out⟩ := by
  rw [sendLoop, if_neg h.1, if_neg h.2, hsend]
  by_cases herrno : a.errno = .ewouldblock ∨ a.errno = .eagain
  · exact ⟨.partialData, nofun, by simp only [if_pos hneg, if_pos herrno]⟩
  · exact ⟨.networkSocketError, nofun, by simp only [if_pos hneg, if_neg herrno]⟩

/-- A round in which the socket call gives a length. -/
theorem sendLoop_cons_of_length (h : Goes B iovMax aData) {a : Answer} (answers : List Answer)
    {n : ℕ} {out : List Datagram} (hsend : t.send (B.fillIov aData iovMax) a = (↑n, out)) :
    sendLoop B iovMax t (a :: answers) aData aPara =
      (sendLoop B iovMax t answers (B.advanceChainedReadPtr n aData)
        (aPara.map (· + BitVec.ofNat 32 n))).map
        fun r => { r with datagrams := out ++ r.datagrams } := by
  rw [sendLoop, if_neg h.1, if_neg h.2, hsend]
  simp only [Int.not_lt.mpr (Int.natCast_nonneg n), if_false, Int.toNat_natCast,
    BitVec.ofInt_natCast]

/-- The socket call of a connected transport. -/
theorem send_of_connected (ht : t.acceptor = none) (iov : List Bytes) (a : Answer) :
    t.send iov a = if a.sent then (↑iov.flatten.length, [⟨t.addrSend, iov.flatten⟩])
      else (-1, []) := by
  rw [send, ht]
  rfl

theorem goes_of_fits (hne : B.data aData ≠ [])
    (hfits : (B.fillIov aData iovMax).flatten = B.data aData) : Goes B iovMax aData := by
  refine ⟨fun h => hne ?_, fun h => hne ?_⟩
  · rw [B.getChainedLength_eq] at h
    exact List.length_eq_zero_iff.mp h
  · rw [← hfits, List.length_eq_zero_iff.mp h, List.flatten_nil]

/-- A chain that fits in one vector is sent by the first round, or the call fails. -/
theorem sendLoop_of_fits (ht : t.acceptor = none) (hne : B.data aData ≠ [])
    (hfits : (B.fillIov aData iovMax).flatten = B.data aData) (a : Answer)
    (answers : List Answer) :
    ∃ r, sendLoop B iovMax t (a :: answers) aData aPara = some r ∧
      Delivers B t aData aPara r := by
  have hgoes := goes_of_fits hne hfits
  have hsend := send_of_connected ht (B.fillIov aData iovMax) a
  rw [hfits] at hsend
  cases hsent : a.sent with
  | false =>
    rw [hsent] at hsend
    obtain ⟨rv, hrv, hloop⟩ := sendLoop_cons_of_neg hgoes answers hsend (by decide)
    exact ⟨_, hloop, delivers_nothing hrv⟩
  | true =>
    rw [hsent] at hsend
    have hdrop : B.data (B.advanceChainedReadPtr (B.data aData).length aData) = [] := by
      rw [B.data_advanceChainedReadPtr, List.drop_length]
    rw [sendLoop_cons_of_length hgoes answers hsend, sendLoop_of_empty answers hdrop]
    exact ⟨_, rfl, fun _ => rfl, fun h => absurd rfl h, rfl⟩

theorem sendOk_of_fits (ht : t.acceptor = none) (hne : B.data aData ≠ [])
    (hfits : (B.fillIov aData iovMax).flatten = B.data aData) : SendOk B iovMax t aData := by
  intro answers aPara r hr
  rw [sendData] at hr
  split at hr
  · obtain rfl := Option.some.inj hr
    exact delivers_nothing nofun
  cases answers with
  | nil =>
    exact absurd ((sendLoop_nil (goes_of_fits hne hfits)).symm.trans hr) nofun
  | cons a answers =>
    obtain ⟨r', hr', hdelivers⟩ := sendLoop_of_fits ht hne hfits a answers
    obtain rfl := Option.some.inj (hr'.symm.trans hr)
    exact hdelivers

/-- The loop of an acceptor's transport can end with `CAW_OK`, and has sent nothing then. -/
theorem exists_ok_of_acceptor (iovMax : ℕ) (ht : t.acceptor.isSome) (n : ℕ) :
    ∀ (aData : C) (aPara : Option (BitVec 32)), (B.data aData).length ≤ n →
      ∃ answers r, sendLoop B iovMax t answers aData aPara = some r ∧ r.rv = .ok ∧
        r.datagrams = [] := by
  induction n with
  | zero =>
    intro aData aPara hlen
    have hnil : B.data aData = [] := List.length_eq_zero_iff.mp (Nat.le_zero.mp hlen)
    exact ⟨[], _, sendLoop_of_empty [] hnil, rfl, rfl⟩
  | succ n ih =>
    intro aData aPara hlen
    by_cases hgoes : Goes B iovMax aData
    · -- the unassigned variable holds 1: the loop takes one byte for sent
      have hsend : t.send (B.fillIov aData iovMax) ⟨false, .other, 1⟩ = (↑(1 : ℕ), []) := by
        rw [send, if_pos ht]
        rfl
      have hadv : (B.data (B.advanceChainedReadPtr 1 aData)).length ≤ n := by
        rw [B.data_advanceChainedReadPtr, List.length_drop]
        omega
      obtain ⟨answers, r, hr, hok, hout⟩ := ih _ (aPara.map (· + BitVec.ofNat 32 1)) hadv
      refine ⟨⟨false, .other, 1⟩ :: answers, r, ?_, hok, hout⟩
      rw [sendLoop_cons_of_length hgoes answers hsend, hr]
      rfl
    · exact ⟨[], _, sendLoop_of_not_goes [] hgoes, rfl, rfl⟩

theorem not_sendOk_of_acceptor (hh : t.handle ≠ none) (ht : t.acceptor.isSome) :
    ¬ SendOk B iovMax t aData := by
  intro hok
  obtain ⟨answers, r, hr, hrv, hout⟩ :=
    exists_ok_of_acceptor (B := B) iovMax ht _ aData none (Nat.le_refl _)
  have hdelivers := hok answers none r (by rw [sendData, if_neg hh, hr])
  exact absurd (hout.symm.trans (hdelivers.sent hrv)) nofun

/-- A call that has nothing to do gives `CAW_OK`. -/
theorem not_sendOk_of_not_goes (hh : t.handle ≠ none) (h : ¬ Goes B iovMax aData) :
    ¬ SendOk B iovMax t aData := by
  intro hok
  have hr : sendData B iovMax t [] aData none = some ⟨.ok, aData, none, []⟩ := by
    rw [sendData, if_neg hh, sendLoop_of_not_goes [] h]
  exact absurd ((hok _ _ _ hr).sent rfl) nofun

/-- If the first vector is not all of the chain, the second datagram can fail after the first one
was sent. -/
theorem not_sendOk_of_not_fits (hh : t.handle ≠ none) (ht : t.acceptor = none)
    (hfits : (B.fillIov aData iovMax).flatten ≠ B.data aData) : ¬ SendOk B iovMax t aData := by
  by_cases hgoes : Goes B iovMax aData
  · intro hok
    have hsend : t.send (B.fillIov aData iovMax) ⟨true, .other, 0⟩ = _ := send_of_connected ht _ _
    have hfail : t.send (B.fillIov (B.advanceChainedReadPtr
        (B.fillIov aData iovMax).flatten.length aData) iovMax) ⟨false, .other, 0⟩ = _ :=
      send_of_connected ht _ _
    have hloop : sendLoop B iovMax t [_, ⟨false, .other, 0⟩] aData none = _ :=
      sendLoop_cons_of_length hgoes _ hsend
    by_cases hrest : Goes B iovMax
        (B.advanceChainedReadPtr (B.fillIov aData iovMax).flatten.length aData)
    · obtain ⟨rv, hrv, hsecond⟩ := sendLoop_cons_of_neg hrest [] hfail (by decide)
      rw [hsecond] at hloop
      have hdelivers := hok _ none _ ((if_neg hh).trans hloop)
      exact absurd (hdelivers.failed hrv) nofun
    · rw [sendLoop_of_not_goes _ hrest] at hloop
      have hdelivers := hok _ none _ ((if_neg hh).trans hloop)
      exact hfits (Datagram.mk.inj (List.singleton_inj.mp (hdelivers.sent rfl))).2
  · exact not_sendOk_of_not_goes hh hgoes

end

/-- **One call, one datagram**, whatever the socket answers, exactly on a closed socket and on a
connected transport whose chain is not empty and all in one vector. -/
theorem sendOk_iff (B : MessageBlock C UInt8) (iovMax : ℕ) (t : CFSTransportUdp) (aData : C) :
    SendOk B iovMax t aData ↔
      t.handle = none ∨
        t.acceptor = none ∧ B.data aData ≠ [] ∧
          (B.fillIov aData iovMax).flatten = B.data aData := by
  by_cases hh : t.handle = none
  · refine iff_of_true (fun answers aPara r hr => ?_) (.inl hh)
    rw [sendData, if_pos hh] at hr
    obtain rfl := Option.some.inj hr
    exact delivers_nothing nofun
  rw [or_iff_right hh]
  constructor
  · intro hok
    have ht : t.acceptor = none := by
      by_contra ht
      exact not_sendOk_of_acceptor hh (Option.isSome_iff_ne_none.mpr ht) hok
    refine ⟨ht, fun hempty => ?_, ?_⟩
    · refine not_sendOk_of_not_goes hh (fun hgoes => hgoes.1 ?_) hok
      rw [B.getChainedLength_eq, hempty, List.length_nil]
    · by_contra hfits
      exact not_sendOk_of_not_fits hh ht hfits hok
  · rintro ⟨ht, hne, hfits⟩
    exact sendOk_of_fits ht hne hfits

/-- A transport that the acceptor made for `10.0.0.1:53`. -/
def accepted : CFSTransportUdp := ⟨some 3, some 0, ⟨0x0a000001, 53⟩, some 0⟩

/-- A connected transport. -/
def connected : CFSTransportUdp := { accepted with acceptor := none }

/-- **Datagram boundaries are lost.** `SendVTo` returns 2, and two bytes count as sent that were
not; three blocks and a vector of two become two datagrams; the second one of them fails, and the
call fails with one datagram sent. -/
theorem not_sendOk :
    sendData .blocks 16 accepted [⟨true, .other, 2⟩] [[1], [2]] (some 0) =
        some ⟨.ok, [[], []], some 2, []⟩ ∧
      sendData .blocks 2 connected [⟨true, .other, 0⟩, ⟨true, .other, 0⟩] [[1], [2], [3]]
          (some 0) =
        some ⟨.ok, [[], [], []], some 3,
          [⟨connected.addrSend, [1, 2]⟩, ⟨connected.addrSend, [3]⟩]⟩ ∧
      sendData .blocks 2 connected [⟨true, .other, 0⟩, ⟨false, .eagain, 0⟩] [[1], [2], [3]]
          (some 0) =
        some ⟨.partialData, [[], [], [3]], some 2, [⟨connected.addrSend, [1, 2]⟩]⟩ ∧
      ¬ SendOk .blocks 16 accepted [[1], [2]] ∧ ¬ SendOk .blocks 2 connected [[1], [2], [3]] := by
  refine ⟨by decide, by decide, by decide, ?_, ?_⟩
  · exact not_sendOk_of_acceptor nofun rfl
  · exact not_sendOk_of_not_fits nofun rfl (by decide)

end CFSTransportUdp

end VosStack.Udp
