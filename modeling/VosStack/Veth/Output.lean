import VosStack.Veth.Stack

/-!
# Output of a packet

`vos_veth_transmit` hands the packet to `eth_output` of the stack, which copies it into a buffer
of 1600 bytes and calls the low-level output. On the way the length is an `int32_t`, an `int16_t`,
an `int` that is cut at 1600, an `int16_t` again and at last a `size_t`; the port number is a
`uint32_t` and then a `uint8_t`.

The composition is the identity exactly up to 1600 bytes and for ports below 256
(`sends_iff`). A packet from 1601 to 32767 bytes is cut. For one from 32768 to 65535 bytes the
`int16_t` is negative, nothing is copied and the low-level output is told to read almost the
whole address space.

Nothing on the way frees the packet, so every call loses it.
-/

namespace VosStack.Veth

/-- A packet whose header has its length. -/
structure WfPacket extends Packet where
  len_eq : len.toNat = (bytes toPacket.chain).length
  /-- `m_pkthdr.len` is an `int32_t` -/
  len_lt : len.toNat < 2 ^ 31

variable {S : Type*}

/-- `eth_output(veth, m)`; `cookie` is the stack that was given to `create_vos_veth`. The result
is none when the copy runs off the end of the chain. -/
def ethOutput (cookie : Option (CFSIPStack S)) (m : Packet) : Option (List Event) :=
  match cookie with
  | none => some []
  | some pstack =>
    let total : BitVec 16 := (vosMbufGetpktlen m).setWidth 16
    let len : BitVec 32 := if 1600 < total.toInt then 1600#32 else total.signExtend 32
    (vosMbufCopydata m 0#32 len).map fun (_, data) => pstack.onOutput data (len.setWidth 16)

/-- `vos_veth_transmit(ifp, m)`: the result, and what the call does. -/
def vosVethTransmit (cookie : Option (CFSIPStack S)) (m : Packet) : Option (ℤ × List Event) :=
  (ethOutput cookie m).map fun log => (0, log)

/-! ### The contract -/

/-- The size of the local copy buffer. -/
def bufSize : ℕ := 1600

/-- The low level of the stack is called with the bytes of the packet, its length and the port of
the stack, or none is called; it is not made to read past the buffer. -/
def Sends (s : CFSIPStack S) (p : WfPacket) (log : List Event) : Prop :=
  (outputs log = [] ∨ ∃ o, outputs log = [o] ∧ s.psend = some o.plowlevel ∧
      o.pktsize.toNat = p.len.toNat ∧ o.buf.take o.pktsize.toNat = bytes p.chain ∧
      o.portid.toNat = s.portid.toNat) ∧
    ∀ o ∈ outputs log, o.pktsize.toNat ≤ bufSize

/-- The contract of `vos_veth_transmit`: the call returns, sends the packet or drops it, and
releases its mbufs once. -/
def TransmitOk (s : CFSIPStack S) (p : WfPacket) (r : Option (ℤ × List Event)) : Prop :=
  ∃ ret log, r = some (ret, log) ∧ Sends s p log ∧ ∀ m ∈ p.chain, released m.id log = 1

/-! ### The length on its way -/

/-- The length that is passed on: the low 16 bits as a signed number, cut at 1600. -/
def outLen (len : BitVec 32) : ℤ := min 1600 (len.setWidth 16).toInt

theorem outLen_eq {len : BitVec 32} :
    outLen len = min 1600 (if len.toNat % 65536 < 32768 then (len.toNat % 65536 : ℤ)
      else (len.toNat % 65536 : ℤ) - 65536) := by
  rw [outLen, BitVec.toInt_setWidth, Int.bmod_def]
  omega

theorem outLen_le (len : BitVec 32) : outLen len ≤ 1600 ∧ -32768 ≤ outLen len ∧
    outLen len ≤ len.toNat := by
  rw [outLen_eq]
  omega

/-- The three conversions before the `size_t` keep the length that is passed on. -/
theorem toInt_len (total : BitVec 16) :
    (if 1600 < total.toInt then 1600#32 else total.signExtend 32).toInt
      = min 1600 total.toInt := by
  split
  · next h =>
    rw [Int.min_eq_left (by omega)]
    rfl
  · next h => rw [BitVec.toInt_signExtend_of_le (by omega), Int.min_eq_right (by omega)]

theorem signExtend_setWidth_of_small {x : BitVec 32} {l : ℤ} (hx : x.toInt = l)
    (hlo : -32768 ≤ l) (hhi : l ≤ 1600) :
    (x.setWidth 16).signExtend 64 = BitVec.ofInt 64 l := by
  apply BitVec.eq_of_toInt_eq
  rw [BitVec.toInt_signExtend_of_le (by omega), BitVec.toInt_setWidth, BitVec.toInt_ofInt, ← hx,
    BitVec.toInt_eq_toNat_bmod]
  rw [BitVec.toInt_eq_toNat_bmod] at hx
  simp only [Int.bmod_def] at *
  omega

/-- A copy of no more than the packet gives its first bytes. -/
theorem vosMbufCopydata_eq (p : WfPacket) {len : BitVec 32} {l : ℤ} (hlen : len.toInt = l)
    (hle : l ≤ p.len.toNat) :
    vosMbufCopydata p.toPacket 0#32 len = some (0, (bytes p.chain).take l.toNat) := by
  have hpkt : p.len.toInt = p.len.toNat :=
    BitVec.toInt_eq_toNat_of_lt (by have := p.len_lt; omega)
  rw [vosMbufCopydata, BitVec.zero_add, hlen, hpkt, if_neg (Int.not_lt.mpr hle),
    BitVec.toInt_zero, mCopydata_eq p.chain (by rw [← p.len_eq]; exact hle), Option.map_some]

/-- What a call does. -/
theorem vosVethTransmit_eq (s : CFSIPStack S) (p : WfPacket) :
    vosVethTransmit (some s) p.toPacket = some (0, s.psend.toList.map fun plowlevel =>
      .output ⟨plowlevel, (bytes p.chain).take (outLen p.len).toNat,
        BitVec.ofInt 64 (outLen p.len), s.portid.setWidth 8⟩) := by
  obtain ⟨hhi, hlo, hle⟩ := outLen_le p.len
  have hlen := toInt_len ((vosMbufGetpktlen p.toPacket).setWidth 16)
  simp only [vosVethTransmit, ethOutput]
  generalize (if 1600 < ((vosMbufGetpktlen p.toPacket).setWidth 16).toInt then 1600#32
    else ((vosMbufGetpktlen p.toPacket).setWidth 16).signExtend 32) = len at hlen ⊢
  rw [vosMbufCopydata_eq p hlen hle, Option.map_some, Option.map_some, CFSIPStack.onOutput,
    signExtend_setWidth_of_small hlen hlo hhi]
  cases s.psend <;> rfl

/-! ### Sending -/

/-- The `size_t` is the length of the packet, and within the buffer, exactly up to 1600 bytes. -/
theorem pktsize_eq_iff {len : BitVec 32} :
    ((BitVec.ofInt 64 (outLen len)).toNat = len.toNat ∧
      (BitVec.ofInt 64 (outLen len)).toNat ≤ bufSize) ↔ len.toNat ≤ 1600 := by
  rw [BitVec.toNat_ofInt, outLen_eq, bufSize]
  omega

theorem portid_eq_iff {portid : BitVec 32} :
    (portid.setWidth 8).toNat = portid.toNat ↔ portid.toNat < 256 := by
  rw [BitVec.toNat_setWidth]
  omega

/-- **Sending.** -/
theorem sends_iff (s : CFSIPStack S) (p : WfPacket) :
    (∃ ret log, vosVethTransmit (some s) p.toPacket = some (ret, log) ∧ Sends s p log) ↔
      s.psend = none ∨ (p.len.toNat ≤ 1600 ∧ s.portid.toNat < 256) := by
  rw [vosVethTransmit_eq]
  cases hpsend : s.psend with
  | none =>
    refine iff_of_true ⟨0, [], rfl, .inl rfl, nofun⟩ (.inl rfl)
  | some plowlevel =>
    constructor
    · rintro ⟨ret, log, hlog, hsent, hread⟩
      obtain ⟨rfl, rfl⟩ := Prod.mk.inj (Option.some.inj hlog)
      obtain hnone | ⟨o, ho, -, hsize, -, hport⟩ := hsent
      · exact absurd hnone nofun
      · obtain rfl := List.singleton_inj.mp ho
        exact .inr ⟨pktsize_eq_iff.mp ⟨hsize, hread _ (List.mem_singleton_self _)⟩,
          portid_eq_iff.mp hport⟩
    · rintro (h | ⟨hlen, hport⟩)
      · exact absurd h nofun
      · obtain ⟨hsize, hread⟩ := pktsize_eq_iff.mpr hlen
        refine ⟨0, _, rfl, .inr ⟨_, rfl, hpsend, hsize, ?_, portid_eq_iff.mpr hport⟩, ?_⟩
        · have hout : (outLen p.len).toNat = p.len.toNat := by
            rw [outLen_eq]
            omega
          change ((bytes p.chain).take (outLen p.len).toNat).take
            (BitVec.ofInt 64 (outLen p.len)).toNat = bytes p.chain
          rw [hsize, hout, p.len_eq, List.take_length, List.take_length]
        · intro o ho
          obtain rfl := List.mem_singleton.mp ho
          exact hread

/-! ### Ownership -/

theorem released_transmit (s : CFSIPStack S) (p : WfPacket) {ret : ℤ} {log : List Event}
    (h : vosVethTransmit (some s) p.toPacket = some (ret, log)) (id : ℕ) :
    released id log = 0 := by
  rw [vosVethTransmit_eq] at h
  obtain ⟨-, rfl⟩ := Prod.mk.inj (Option.some.inj h)
  cases s.psend <;> rfl

/-- **The contract of the output.** No call meets it, since none releases the packet; the packet
is sent or dropped as it asks for exactly when the length and the port are small enough. -/
theorem not_transmitOk (s : CFSIPStack S) (p : WfPacket) :
    ¬ TransmitOk s p (vosVethTransmit (some s) p.toPacket) ∧
    ((∃ ret log, vosVethTransmit (some s) p.toPacket = some (ret, log) ∧ Sends s p log) ↔
      s.psend = none ∨ (p.len.toNat ≤ 1600 ∧ s.portid.toNat < 256)) := by
  refine ⟨?_, sends_iff s p⟩
  rintro ⟨ret, log, hlog, -, hreleased⟩
  have hzero := released_transmit s p hlog p.hdr.id
  have hone := hreleased p.hdr List.mem_cons_self
  omega

/-- A packet of `n` bytes in one mbuf. -/
def packet (n : ℕ) (h : n < 2 ^ 31) : WfPacket where
  hdr := ⟨7, n, List.replicate n 1⟩
  next := []
  len := BitVec.ofNat 32 n
  csumFlags := 0
  csumData := 0
  rcvif := none
  len_eq := by
    change _ = ([⟨7, n, List.replicate n 1⟩].flatMap Mbuf.data).length
    rw [List.flatMap_cons, List.flatMap_nil, List.append_nil, List.length_replicate,
      BitVec.toNat_ofNat]
    omega
  len_lt := by
    rw [BitVec.toNat_ofNat]
    omega

/-- An opened stack with a low level. -/
def openStack (portid : BitVec 32) : CFSIPStack String :=
  (CFSIPStack.named "eth0" portid).openWithLowLevel (fun _ => 0) (some 7) 1

/-- A packet of one byte is sent and not released; one of 1601 bytes, one of 32768 bytes and one
of one byte from port 256 are not sent as they are. -/
theorem packet_lost :
    ¬ TransmitOk (openStack 0) (packet 1 (by decide))
        (vosVethTransmit (some (openStack 0)) (packet 1 (by decide)).toPacket) ∧
    ¬ (∃ ret log, vosVethTransmit (some (openStack 0)) (packet 1601 (by decide)).toPacket
        = some (ret, log) ∧ Sends (openStack 0) (packet 1601 (by decide)) log) ∧
    ¬ (∃ ret log, vosVethTransmit (some (openStack 0)) (packet 32768 (by decide)).toPacket
        = some (ret, log) ∧ Sends (openStack 0) (packet 32768 (by decide)) log) ∧
    ¬ (∃ ret log, vosVethTransmit (some (openStack 256)) (packet 1 (by decide)).toPacket
        = some (ret, log) ∧ Sends (openStack 256) (packet 1 (by decide)) log) := by
  refine ⟨?_, ?_, ?_, ?_⟩
  · rintro ⟨ret, log, hlog, -, hreleased⟩
    have hzero := released_transmit _ _ hlog 7
    have hone := hreleased ⟨7, 1, [1]⟩ List.mem_cons_self
    exact absurd (hzero.symm.trans hone) (by decide)
  · rw [sends_iff]
    exact fun h => absurd h (by decide)
  · rw [sends_iff]
    exact fun h => absurd h (by decide)
  · rw [sends_iff]
    exact fun h => absurd h (by decide)

end VosStack.Veth
