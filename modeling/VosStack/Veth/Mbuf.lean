import Mathlib.Algebra.Group.Nat.Defs
import Mathlib.Data.Int.Notation
import VosStack.Basic

/-!
# Packet buffers

The packets of the kernel are chains of mbufs. The functions of `so_mbuf.c` through which the
virtual interface makes, reads and frees them are modelled here, with the parts of the kernel's
mbuf library that they use.

An mbuf is its address, the bytes `m_len` of which lie at `m_data`, and the room that its storage
has from `m_data` on. Nothing keeps `m_len` within the room.

Ownership is accounted for by a log of what a call does with mbufs: `released` counts how often
an mbuf is given back, by `m_free` or by passing its chain to the network stack.
-/

namespace VosStack.Veth

/-- `MHLEN`: an mbuf has 256 bytes (`MSIZE`), of which its header takes 32 and the packet header
takes 56. -/
def MHLEN : ℕ := 256 - (32 + 56)

/-- An mbuf. -/
structure Mbuf where
  /-- its address -/
  id : ℕ
  /-- the size of its storage from `m_data` on -/
  room : ℕ
  /-- the `m_len` bytes at `m_data` -/
  data : Bytes
  deriving DecidableEq, Repr

/-- `m_len`. -/
def Mbuf.len (m : Mbuf) : ℕ := m.data.length

/-- A chain whose first mbuf has a packet header. -/
structure Packet where
  hdr : Mbuf
  next : List Mbuf
  /-- `m_pkthdr.len` -/
  len : BitVec 32
  csumFlags : BitVec 32
  csumData : BitVec 32
  /-- `m_pkthdr.rcvif` -/
  rcvif : Option ℕ
  deriving DecidableEq, Repr

def Packet.chain (p : Packet) : List Mbuf := p.hdr :: p.next

/-- The bytes of a chain. -/
def bytes (chain : List Mbuf) : Bytes := chain.flatMap Mbuf.data

/-! ### What a call does -/

/-- A call of the low-level output. -/
structure Output where
  /-- the low level -/
  plowlevel : ℕ
  /-- the bytes written into the caller's buffer, which `pkt` points to -/
  buf : Bytes
  pktsize : BitVec 64
  portid : BitVec 8
  deriving DecidableEq, Repr

inductive Event
  /-- an mbuf is allocated -/
  | alloc (id : ℕ)
  /-- `ifp->if_input(ifp, m)` -/
  | input (ifp : ℕ) (p : Packet)
  /-- `m_free` -/
  | free (id : ℕ)
  /-- `IPStackLowLevelOutput` -/
  | output (o : Output)
  deriving DecidableEq, Repr

/-- The mbufs that an event gives back. `if_input` takes the chain that it is given. -/
def Event.releases : Event → List ℕ
  | .input _ p => p.chain.map Mbuf.id
  | .free id => [id]
  | _ => []

/-- How often the mbuf `id` is released. -/
def released (id : ℕ) (log : List Event) : ℕ := (log.flatMap Event.releases).count id

/-- The packets given to the network stack. -/
def inputs : List Event → List Packet
  | [] => []
  | .input _ p :: log => p :: inputs log
  | _ :: log => inputs log

/-- The calls of the low-level output. -/
def outputs : List Event → List Output
  | [] => []
  | .output o :: log => o :: outputs log
  | _ :: log => outputs log

/-! ### Making and freeing packets -/

/-- What the kernel's allocator does in one call. -/
structure Alloc where
  /-- the result of `m_gethdr(M_NOWAIT, MT_DATA)` -/
  gethdr : Option ℕ
  /-- `m_pkthdr_init` fails -/
  initError : Bool
  deriving DecidableEq, Repr

/-- `CSUM_IP_CHECKED | CSUM_IP_VALID | CSUM_DATA_VALID | CSUM_PSEUDO_HDR`. -/
def csumAll : BitVec 32 := 0x01000000#32 ||| 0x02000000#32 ||| 0x08000000#32 ||| 0x04000000#32

/-- `vos_mbuf_gethdr`. `ext` is the external buffer `data` with its size `len`, when `data` and
`ext_free` are given; else `total` bytes of `pkt` are copied into the mbuf. -/
def vosMbufGethdr (a : Alloc) (pkt : Bytes) (total : BitVec 16) (ext : Option (Bytes × BitVec 16))
    (rxCsum : BitVec 8) : Option Packet × List Event :=
  match a.gethdr with
  | none => (none, [])
  | some id =>
    if a.initError then (none, [.alloc id])
    else
      let hdr : Mbuf :=
        match ext with
        | some (data, len) => ⟨id, len.toNat, data.take total.toNat⟩
        | none => ⟨id, MHLEN, pkt.take total.toNat⟩
      let csumFlags := if rxCsum ≠ 0 then csumAll else 0
      let csumData := if rxCsum ≠ 0 then 0xffff else 0
      (some ⟨hdr, [], total.setWidth 32, csumFlags, csumData, none⟩, [.alloc id])

/-- `m_freem` on a chain. -/
def mFreem (chain : List ℕ) : List Event := chain.map Event.free

/-- `vos_mbuf_free`. -/
def vosMbufFree (chain : List ℕ) : List Event := mFreem chain

/-! ### Reading packets -/

/-- `vos_mbuf_getpktlen`. -/
def vosMbufGetpktlen (p : Packet) : BitVec 32 := p.len

/-- The first loop of `m_copydata`: skip `off` bytes. The result is the mbuf that holds the next
byte, with the rest of its chain, and the offset in it; none when the chain ends. -/
def mCopydataSkip : List Mbuf → ℕ → Option (List Mbuf × ℕ)
  | chain, 0 => some (chain, 0)
  | [], _ + 1 => none
  | m :: chain, off + 1 =>
    if off + 1 < m.len then some (m :: chain, off + 1) else mCopydataSkip chain (off + 1 - m.len)

/-- The second loop of `m_copydata`: copy `len` bytes, none when the chain ends. -/
def mCopydataCopy : List Mbuf → ℕ → ℕ → Option Bytes
  | _, _, 0 => some []
  | [], _, _ + 1 => none
  | m :: chain, off, len + 1 =>
    let count := min (m.len - off) (len + 1)
    (mCopydataCopy chain 0 (len + 1 - count)).map ((m.data.drop off).take count ++ ·)

/-- `m_copydata`: the bytes copied. The loops do nothing on negative arguments. -/
def mCopydata (chain : List Mbuf) (off len : ℤ) : Option Bytes :=
  (mCopydataSkip chain off.toNat).bind fun (chain, off) => mCopydataCopy chain off len.toNat

/-- `vos_mbuf_copydata`: its result, and the bytes copied. -/
def vosMbufCopydata (p : Packet) (off len : BitVec 32) : Option (ℤ × Bytes) :=
  if p.len.toInt < (off + len).toInt then some (-1, [])
  else (mCopydata p.chain off.toInt len.toInt).map fun data => (0, data)

theorem mCopydataCopy_eq (chain : List Mbuf) {len : ℕ} (h : len ≤ (bytes chain).length) :
    mCopydataCopy chain 0 len = some ((bytes chain).take len) := by
  induction chain generalizing len with
  | nil =>
    obtain rfl : len = 0 := Nat.le_zero.mp h
    rfl
  | cons m chain ih =>
    cases len with
    | zero => rfl
    | succ len =>
      have hbytes : bytes (m :: chain) = m.data ++ bytes chain := List.flatMap_cons
      rw [hbytes, List.length_append] at h
      have hrest : len + 1 - min m.len (len + 1) ≤ (bytes chain).length := by
        rw [Mbuf.len]
        omega
      have htake : m.data.take (min m.len (len + 1)) = m.data.take (len + 1) := by
        rw [Nat.min_comm, Mbuf.len, ← List.take_eq_take_min]
      have hdrop : len + 1 - min m.len (len + 1) = len + 1 - m.data.length := by
        rw [Mbuf.len]
        omega
      rw [mCopydataCopy, Nat.sub_zero, ih hrest, Option.map_some, hbytes, List.take_append,
        List.drop_zero, htake, hdrop]

/-- A copy from the start gives the first bytes of the chain. -/
theorem mCopydata_eq (chain : List Mbuf) {len : ℤ} (h : len ≤ (bytes chain).length) :
    mCopydata chain 0 len = some ((bytes chain).take len.toNat) := by
  have hlen : len.toNat ≤ (bytes chain).length := by omega
  have hskip : mCopydataSkip chain 0 = some (chain, 0) := by rw [mCopydataSkip]
  rw [mCopydata, Int.toNat_zero, hskip, Option.bind_some]
  exact mCopydataCopy_eq chain hlen

end VosStack.Veth
