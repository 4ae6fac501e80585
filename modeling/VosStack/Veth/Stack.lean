import VosStack.Basic
import VosStack.Veth.Mbuf

/-!
# An IP stack and its veth

`CFSIPStack` is what the rest of this directory is about: the registry numbers the stacks and keeps
them, each has an interface that the kernel finds by its name, address settings that are kept
twice, and a low level that its packets go to. This module has the class and its methods; what each
part is for, and how far it gets there, is in the modules after it.

* A stack is made with its strings and opened with a low level: `OpenWithLowLevel` makes its
  veth, with the numbers that `CAWInetAddr` makes of the strings.
* The setters need the veth of an opened stack, but for `SetIPNetMask`, which never looks at it.
* There are two ways out. `OnOutput` is called by the veth for a packet of the stack, and
  `IPStackLowLevelOutput` by the registry. The latter counts what it sent with `TXInc`, which
  increments `m_rx`.

The strings are of any type, with the numbers made of them as a parameter. A low level and an
interface are numbers.
-/

namespace VosStack.Veth

/-! ### The veth -/

/-- `struct vos_veth`: its interface and its addresses. -/
structure VosVeth where
  ifp : Option ℕ
  ip : BitVec 32
  netmask : BitVec 32
  broadcast : BitVec 32
  gateway : BitVec 32
  deriving DecidableEq, Repr

/-- `vos_veth_setaddr`. -/
def VosVeth.setaddr (sc : VosVeth) (paddr netmask broadcast : BitVec 32) : VosVeth :=
  { sc with ip := paddr, netmask := netmask, broadcast := broadcast }

/-- `vos_veth_set_gateway`. -/
def VosVeth.setGateway (sc : VosVeth) (paddr : BitVec 32) : VosVeth := { sc with gateway := paddr }

/-- `create_vos_veth`: a cleared structure, its interface, then the addresses. -/
def createVosVeth (ifp : ℕ) (ipaddr netmask broadcast gw : BitVec 32) : VosVeth :=
  (VosVeth.setaddr ⟨some ifp, 0, 0, 0, 0⟩ ipaddr netmask broadcast).setGateway gw

/-! ### The stack -/

/-- `CFSIPStack`. -/
structure CFSIPStack (S : Type*) where
  /-- `m_ifname` -/
  ifname : S
  /-- `m_portid` -/
  portid : BitVec 32
  /-- `m_psend`: the low level -/
  psend : Option ℕ
  /-- `m_rx` -/
  rx : BitVec 32
  /-- `m_stripaddr` -/
  stripaddr : S
  /-- `m_stripmask` -/
  stripmask : S
  /-- `m_strgateway` -/
  strgateway : S
  /-- `m_strbroadcast` -/
  strbroadcast : S
  /-- `m_vnet` -/
  vnet : Option VosVeth
  deriving DecidableEq, Repr

namespace CFSIPStack

variable {S : Type*}

section constructors

variable [Inhabited S]

/-- The constructor with a name. A string that is not given is empty. -/
def named (strifname : S) (index : BitVec 32) : CFSIPStack S :=
  ⟨strifname, index, none, 0, default, default, default, default, none⟩

/-- The constructor with a name and addresses. -/
def configured (ifname ipaddr ipmask gateway : S) (index : BitVec 32) : CFSIPStack S :=
  ⟨ifname, index, none, 0, ipaddr, ipmask, gateway, default, none⟩

end constructors

/-! ### Settings -/

section settings

variable (in4 : S → BitVec 32) (s : CFSIPStack S)

/-- `OpenWithLowLevel`; `ifp` is the interface that the new veth gets. -/
def openWithLowLevel (plowlevel : Option ℕ) (ifp : ℕ) : CFSIPStack S :=
  { s with
    psend := plowlevel
    vnet := some (createVosVeth ifp (in4 s.stripaddr) (in4 s.stripmask) 0 (in4 s.strgateway)) }

/-- `SetIP`. The veth is not there before the stack is opened. -/
def setIP (stripaddr : S) : Option (CFSIPStack S) :=
  s.vnet.map fun sc =>
    { s with vnet := some (sc.setGateway (in4 stripaddr)), stripaddr := stripaddr }

/-- `SetIPNetMask`. The number is not used. -/
def setIPNetMask (ipnetmask : S) : CFSIPStack S := { s with stripmask := ipnetmask }

/-- `SetGateway`. -/
def setGateway (ipgw : S) : Option (CFSIPStack S) :=
  s.vnet.map fun sc => { s with vnet := some (sc.setGateway (in4 ipgw)) }

/-- `SetIPAddress`. -/
def setIPAddress (stripaddr stripmask strbroadcast : S) : Option (CFSIPStack S) :=
  s.vnet.map fun sc =>
    { s with
      stripaddr := stripaddr
      stripmask := stripmask
      strbroadcast := strbroadcast
      vnet := some (sc.setaddr (in4 stripaddr) (in4 stripmask) (in4 strbroadcast)) }

/-- `GetIPAddress`. -/
def getIPAddress : S × S × S := (s.stripaddr, s.stripmask, s.strgateway)

variable {s}

theorem getIPAddress_eq_iff {a m g : S} :
    s.getIPAddress = (a, m, g) ↔ s.stripaddr = a ∧ s.stripmask = m ∧ s.strgateway = g := by
  rw [getIPAddress, Prod.mk.injEq, Prod.mk.injEq]

end settings

/-! ### Output -/

/-- `OnOutput(pkt, len)`; the buffer at `pkt` starts with `buf`. -/
def onOutput (s : CFSIPStack S) (buf : Bytes) (len : BitVec 16) : List Event :=
  match s.psend with
  | none => []
  | some plowlevel => [.output ⟨plowlevel, buf, len.signExtend 64, s.portid.setWidth 8⟩]

/-- `TXInc`. -/
def txInc (s : CFSIPStack S) : CFSIPStack S := { s with rx := s.rx + 1 }

/-- `IPStackLowLevelOutput`: the stack, the result, and the calls of a low level that were made;
`rv` is what a low level answers to a call. -/
def ipStackLowLevelOutput (s : CFSIPStack S) (pkt : Bytes) (pktsize : BitVec 64)
    (portid : BitVec 8) (rv : Output → CAWResult) : CFSIPStack S × CAWResult × List Output :=
  match s.psend with
  | none => (s, .failure, [])
  | some plowlevel =>
    let o : Output := ⟨plowlevel, pkt, pktsize, portid⟩
    if (rv o).failed then (s, .failure, [o]) else (s.txInc, .ok, [o])

/-- What `IPStackLowLevelOutput` does to the stack it is called on. -/
theorem ipStackLowLevelOutput_fst (s : CFSIPStack S) (pkt : Bytes) (pktsize : BitVec 64)
    (portid : BitVec 8) (rv : Output → CAWResult) :
    (s.ipStackLowLevelOutput pkt pktsize portid rv).1 =
      if (s.ipStackLowLevelOutput pkt pktsize portid rv).2.1 = .ok then s.txInc else s := by
  rw [ipStackLowLevelOutput]
  split
  · rfl
  · dsimp only
    split_ifs <;> first | rfl | contradiction

theorem portid_ipStackLowLevelOutput (s : CFSIPStack S) (pkt : Bytes) (pktsize : BitVec 64)
    (portid : BitVec 8) (rv : Output → CAWResult) :
    (s.ipStackLowLevelOutput pkt pktsize portid rv).1.portid = s.portid := by
  rw [ipStackLowLevelOutput_fst]
  split_ifs <;> rfl

/-- The calls it makes, and its result. -/
theorem ipStackLowLevelOutput_snd (s : CFSIPStack S) (pkt : Bytes) (pktsize : BitVec 64)
    (portid : BitVec 8) (rv : Output → CAWResult) :
    (s.ipStackLowLevelOutput pkt pktsize portid rv).2.2 =
        s.psend.toList.map (fun plowlevel => ⟨plowlevel, pkt, pktsize, portid⟩) ∧
      (s.ipStackLowLevelOutput pkt pktsize portid rv).2.1 =
        if ∃ o ∈ (s.ipStackLowLevelOutput pkt pktsize portid rv).2.2, ¬(rv o).failed then .ok
        else .failure := by
  rw [ipStackLowLevelOutput]
  cases s.psend with
  | none => exact ⟨rfl, (if_neg nofun).symm⟩
  | some plowlevel =>
    dsimp only
    split_ifs with hrv hex hex
    · obtain ⟨o, ho, hne⟩ := hex
      rw [List.mem_singleton.mp ho] at hne
      exact absurd hrv hne
    · exact ⟨rfl, rfl⟩
    · exact ⟨rfl, rfl⟩
    · exact absurd ⟨_, List.mem_singleton_self _, hrv⟩ hex

end CFSIPStack

end VosStack.Veth
