import VosStack.Veth.Stack

/-!
# Input of a frame

`vos_veth_input` copies a frame into one header mbuf, gives it to the input routine of the
interface and frees it. Three things go wrong:

* `if_input` takes the mbuf, so the `vos_mbuf_free` after it is a second release. It happens in
  every call that reaches the stack.
* The early returns, when the packet header cannot be set up or there is no interface, keep the
  mbuf.
* A header mbuf holds `MHLEN` bytes and the copy is not bounded by it; a length from 65536 on is
  cut to 16 bits on the way.

So a frame is delivered as it is exactly up to `MHLEN` bytes (`delivered_iff`), and the mbuf is
accounted for only in a call that gets none.
-/

namespace VosStack.Veth

/-- `vos_veth_input(eth, pkt, pktsize, rx_csum)`: the result, and what the call does. `rest` is
what the stack makes of the chain: the mbufs after the first that `m_freem` finds when `if_input`
has returned. -/
def vosVethInput (a : Alloc) (ifp : Option ℕ) (rest : Packet → List ℕ) (pkt : Bytes)
    (rxCsum : BitVec 8) : ℤ × List Event :=
  let pktsize := BitVec.ofNat 64 pkt.length
  let (mb, log) := vosMbufGethdr a pkt (pktsize.setWidth 16) none rxCsum
  match mb with
  | none => (-1, log)
  | some mb =>
    match ifp with
    | none => (-1, log)
    | some ifp =>
      let mb := { mb with rcvif := some ifp }
      ((pktsize.setWidth 32).toInt, log ++ [.input ifp mb] ++ vosMbufFree (mb.hdr.id :: rest mb))

/-- `CFSIPStack::IPStackInput`. -/
def CFSIPStack.ipStackInput {S : Type*} (s : CFSIPStack S) (a : Alloc) (rest : Packet → List ℕ)
    (pkt : Bytes) : List Event :=
  match s.vnet with
  | none => []
  | some sc => (vosVethInput a sc.ifp rest pkt 1).2

/-! ### The contract -/

/-- The stack is given one chain with the length and the bytes of the frame, all of them within
the storage of its mbufs. -/
def Delivered (pkt : Bytes) (log : List Event) : Prop :=
  ∃ p, inputs log = [p] ∧ p.len.toNat = pkt.length ∧ bytes p.chain = pkt ∧
    ∀ m ∈ p.chain, m.len ≤ m.room

/-- The contract of `vos_veth_input`. -/
structure InputOk (pkt : Bytes) (r : ℤ × List Event) : Prop where
  /-- the frame is refused and no mbuf is kept, or it is delivered -/
  result : (r.1 = -1 ∧ ∀ id, Event.alloc id ∈ r.2 → 1 ≤ released id r.2) ∨ Delivered pkt r.2
  /-- each mbuf is released once -/
  once : ∀ id, Event.alloc id ∈ r.2 → released id r.2 = 1

/-! ### The cases of a call -/

section call

variable {a : Alloc} {ifp : Option ℕ} {rest : Packet → List ℕ} {pkt : Bytes} {rxCsum : BitVec 8}

/-- The packet that is made of the frame. -/
def packetOf (id ifp : ℕ) (pkt : Bytes) (rxCsum : BitVec 8) : Packet :=
  ⟨⟨id, MHLEN, pkt.take (pkt.length % 65536)⟩, [], BitVec.ofNat 32 (pkt.length % 65536),
    if rxCsum ≠ 0 then csumAll else 0, if rxCsum ≠ 0 then 0xffff else 0, some ifp⟩

theorem vosVethInput_of_none (h : a.gethdr = none) :
    vosVethInput a ifp rest pkt rxCsum = (-1, []) := by
  simp only [vosVethInput, vosMbufGethdr, h]

/-- The early returns keep the mbuf. -/
theorem vosVethInput_of_early {id : ℕ} (h : a.gethdr = some id)
    (hearly : a.initError = true ∨ ifp = none) :
    vosVethInput a ifp rest pkt rxCsum = (-1, [.alloc id]) := by
  cases hi : a.initError with
  | true => simp only [vosVethInput, vosMbufGethdr, h, hi, if_true]
  | false =>
    obtain hbad | rfl := hearly
    · exact absurd (hi.symm.trans hbad) Bool.false_ne_true
    · simp only [vosVethInput, vosMbufGethdr, h, hi, Bool.false_eq_true, if_false]

theorem vosVethInput_of_some {id i : ℕ} (h : a.gethdr = some id) (hi : a.initError = false) :
    (vosVethInput a (some i) rest pkt rxCsum).2 =
      [.alloc id, .input i (packetOf id i pkt rxCsum), .free id] ++
        mFreem (rest (packetOf id i pkt rxCsum)) := by
  have hlen : ((BitVec.ofNat 64 pkt.length).setWidth 16).toNat = pkt.length % 65536 := by
    rw [BitVec.toNat_setWidth, BitVec.toNat_ofNat]
    omega
  have hlen32 : (((BitVec.ofNat 64 pkt.length).setWidth 16).setWidth 32)
      = BitVec.ofNat 32 (pkt.length % 65536) := by
    apply BitVec.eq_of_toNat_eq
    rw [BitVec.toNat_setWidth, hlen, BitVec.toNat_ofNat]
  simp only [vosVethInput, vosMbufGethdr, h, hi, Bool.false_eq_true, if_false, hlen, hlen32]
  rfl

theorem inputs_mFreem (chain : List ℕ) : inputs (mFreem chain) = [] := by
  induction chain with
  | nil => rfl
  | cons id chain ih => exact ih

/-! ### Delivery -/

theorem bytes_packetOf (id i : ℕ) :
    bytes (packetOf id i pkt rxCsum).chain = pkt.take (pkt.length % 65536) := by
  rw [bytes, Packet.chain, List.flatMap_cons]
  exact List.append_nil _

/-- The packet made of the frame carries it, within the storage of the mbuf, exactly up to
`MHLEN` bytes. -/
theorem packetOf_carries_iff (rxCsum : BitVec 8) (id i : ℕ) :
    ((packetOf id i pkt rxCsum).len.toNat = pkt.length ∧
        bytes (packetOf id i pkt rxCsum).chain = pkt ∧
        ∀ m ∈ (packetOf id i pkt rxCsum).chain, m.len ≤ m.room) ↔ pkt.length ≤ MHLEN := by
  have hlen : (packetOf id i pkt rxCsum).len.toNat = pkt.length % 65536 := by
    change (BitVec.ofNat 32 (pkt.length % 65536)).toNat = _
    rw [BitVec.toNat_ofNat]
    omega
  have hroom : (∀ m ∈ (packetOf id i pkt rxCsum).chain, m.len ≤ m.room)
      ↔ (pkt.take (pkt.length % 65536)).length ≤ MHLEN := List.forall_mem_singleton
  rw [hlen, bytes_packetOf, hroom, List.length_take]
  constructor
  · rintro ⟨hmod, -, hle⟩
    omega
  · intro hle
    have hmod : pkt.length % 65536 = pkt.length :=
      Nat.mod_eq_of_lt (Nat.lt_of_le_of_lt hle (by decide))
    refine ⟨hmod, ?_, by omega⟩
    rw [hmod, List.take_length]

/-- **Delivery.** -/
theorem delivered_iff :
    Delivered pkt (vosVethInput a ifp rest pkt rxCsum).2 ↔
      a.gethdr ≠ none ∧ a.initError = false ∧ ifp ≠ none ∧ pkt.length ≤ MHLEN := by
  cases hg : a.gethdr with
  | none =>
    rw [vosVethInput_of_none hg]
    constructor
    · rintro ⟨p, hin, -⟩
      exact absurd hin nofun
    · rintro ⟨hne, -⟩
      exact absurd rfl hne
  | some id =>
    by_cases hearly : a.initError = true ∨ ifp = none
    · rw [vosVethInput_of_early hg hearly]
      constructor
      · rintro ⟨p, hin, -⟩
        exact absurd hin nofun
      · rintro ⟨-, hi, hifp, -⟩
        obtain h | h := hearly
        · exact absurd (hi.symm.trans h) Bool.false_ne_true
        · exact absurd h hifp
    · obtain ⟨hi, hifp⟩ := not_or.mp hearly
      obtain ⟨i, rfl⟩ := Option.ne_none_iff_exists'.mp hifp
      have hi : a.initError = false := Bool.eq_false_iff.mpr hi
      have hin : inputs (vosVethInput a (some i) rest pkt rxCsum).2
          = [packetOf id i pkt rxCsum] := by
        rw [vosVethInput_of_some hg hi]
        exact congrArg (packetOf id i pkt rxCsum :: ·) (inputs_mFreem _)
      rw [← packetOf_carries_iff rxCsum id i, Delivered, hin]
      constructor
      · rintro ⟨p, hp, hcarries⟩
        obtain rfl := List.singleton_inj.mp hp
        exact ⟨nofun, hi, nofun, hcarries⟩
      · rintro ⟨-, -, -, hcarries⟩
        exact ⟨_, rfl, hcarries⟩

/-- A stack that is not opened drops the frame. -/
theorem delivered_ipStackInput_iff {S : Type*} {s : CFSIPStack S} :
    Delivered pkt (s.ipStackInput a rest pkt) ↔
      ∃ sc, s.vnet = some sc ∧ a.gethdr ≠ none ∧ a.initError = false ∧ sc.ifp ≠ none ∧
        pkt.length ≤ MHLEN := by
  rw [CFSIPStack.ipStackInput]
  cases s.vnet with
  | none =>
    constructor
    · rintro ⟨p, hin, -⟩
      exact absurd hin nofun
    · rintro ⟨sc, hsc, -⟩
      exact absurd hsc nofun
  | some sc =>
    rw [delivered_iff]
    constructor
    · exact fun h => ⟨sc, rfl, h⟩
    · rintro ⟨sc', hsc, h⟩
      obtain rfl := Option.some.inj hsc
      exact h

/-! ### Ownership -/

/-- A call that reaches the stack releases the mbuf twice. -/
theorem two_le_released {id i : ℕ} (h : a.gethdr = some id) (hi : a.initError = false) :
    2 ≤ released id (vosVethInput a (some i) rest pkt rxCsum).2 := by
  have hreleases : (vosVethInput a (some i) rest pkt rxCsum).2.flatMap Event.releases
      = id :: id :: (mFreem (rest (packetOf id i pkt rxCsum))).flatMap Event.releases := by
    rw [vosVethInput_of_some h hi]
    rfl
  rw [released, hreleases, List.count_cons_self, List.count_cons_self]
  omega

/-- A call that gets an mbuf does not release it once. -/
theorem released_ne_one {id : ℕ} (h : a.gethdr = some id) :
    released id (vosVethInput a ifp rest pkt rxCsum).2 ≠ 1 := by
  by_cases hearly : a.initError = true ∨ ifp = none
  · rw [vosVethInput_of_early h hearly]
    exact nofun
  · obtain ⟨hi, hifp⟩ := not_or.mp hearly
    obtain ⟨i, rfl⟩ := Option.ne_none_iff_exists'.mp hifp
    have htwo : 2 ≤ released id (vosVethInput a (some i) rest pkt rxCsum).2 :=
      two_le_released h (Bool.eq_false_iff.mpr hi)
    omega

theorem alloc_mem {id : ℕ} (h : a.gethdr = some id) :
    Event.alloc id ∈ (vosVethInput a ifp rest pkt rxCsum).2 := by
  by_cases hearly : a.initError = true ∨ ifp = none
  · rw [vosVethInput_of_early h hearly]
    exact List.mem_singleton_self _
  · obtain ⟨hi, hifp⟩ := not_or.mp hearly
    obtain ⟨i, rfl⟩ := Option.ne_none_iff_exists'.mp hifp
    rw [vosVethInput_of_some h (Bool.eq_false_iff.mpr hi)]
    exact List.mem_cons_self

end call

/-- **The contract of the input.** It holds only where no mbuf can be allocated; the delivery
that it asks for holds up to `MHLEN` bytes. -/
theorem inputOk_iff (a : Alloc) (ifp : Option ℕ) (rest : Packet → List ℕ) (pkt : Bytes)
    (rxCsum : BitVec 8) :
    (InputOk pkt (vosVethInput a ifp rest pkt rxCsum) ↔ a.gethdr = none) ∧
    (Delivered pkt (vosVethInput a ifp rest pkt rxCsum).2 ↔
      a.gethdr ≠ none ∧ a.initError = false ∧ ifp ≠ none ∧ pkt.length ≤ MHLEN) := by
  refine ⟨⟨fun hok => ?_, fun hg => ?_⟩, delivered_iff⟩
  · rw [Option.eq_none_iff_forall_ne_some]
    intro id hg
    exact released_ne_one hg (hok.once id (alloc_mem hg))
  · rw [vosVethInput_of_none hg]
    exact ⟨.inl ⟨rfl, nofun⟩, nofun⟩

/-- A frame of one byte is released twice; one of 169 bytes does not fit its mbuf; one of 65537
bytes arrives as one byte; and without an interface the mbuf is kept. -/
theorem not_inputOk :
    ¬ InputOk [1] (vosVethInput ⟨some 7, false⟩ (some 0) (fun _ => []) [1] 1) ∧
    ¬ Delivered (List.replicate 169 1)
        (vosVethInput ⟨some 7, false⟩ (some 0) (fun _ => []) (List.replicate 169 1) 1).2 ∧
    ¬ Delivered (List.replicate 65537 1)
        (vosVethInput ⟨some 7, false⟩ (some 0) (fun _ => []) (List.replicate 65537 1) 1).2 ∧
    ¬ InputOk [1] (vosVethInput ⟨some 7, false⟩ none (fun _ => []) [1] 1) := by
  refine ⟨fun h => ?_, fun h => ?_, fun h => ?_, fun h => ?_⟩
  · exact absurd (h.once 7 (by decide)) (by decide)
  · have hlen := (delivered_iff.mp h).2.2.2
    rw [List.length_replicate] at hlen
    exact absurd hlen (by decide)
  · have hlen := (delivered_iff.mp h).2.2.2
    rw [List.length_replicate] at hlen
    exact absurd hlen (by decide)
  · exact absurd (h.once 7 (by decide)) (by decide)

end VosStack.Veth
