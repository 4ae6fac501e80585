import VosStack.Table.Index
import VosStack.Transition.Run
import VosStack.Veth.Stack

/-!
# The names of the interfaces

Each IP stack that is opened makes an interface, and addresses are set by an ioctl that finds the
interface by its name. So the stacks have to get interfaces of different names.

`OpenWithLowLevel` makes the name `veth-0-<port>`, and `create_vos_veth` copies as many bytes of
it as a MAC address has. What is left is `veth-0` for every port (`newIfnet_eq`): the ioctl of
every stack finds the interface that was made first.

The world has the registry of the stacks, the list `V_ifnet` of the kernel and, as ghost data,
the requests that were made of the ioctl. An object is its position in its list.
-/

namespace VosStack.Veth

open Transition

abbrev Name := List Char

/-! ### Names -/

/-- The bytes of a C string in a zeroed array of `n` bytes. -/
def charArray (n : ℕ) (s : Name) : Name := (s ++ List.replicate n (Char.ofNat 0)).take n

/-- The C string at the start of an array. -/
def cstring (a : Name) : Name := a.takeWhile (· ≠ Char.ofNat 0)

/-- `VOS_IF_NAMESIZE` and `IFNAMSIZ`. -/
def ifNameSize : ℕ := 16

/-- `ifname` of `OpenWithLowLevel`: `snprintf(ifname, sizeof(ifname), "veth-0-%d", m_portid)`. -/
def ifname (portid : BitVec 32) : Name :=
  charArray ifNameSize
    (("veth-0-".toList ++ (toString portid.toInt).toList).take (ifNameSize - 1))

/-- `sc->host_ifname` of `create_vos_veth`: `memcpy(sc->host_ifname, name, sizeof(sc->mac))`. -/
def hostIfname (name : Name) : Name := charArray ifNameSize (name.take 6)

/-! ### Interfaces -/

/-- The names of a `struct ifnet`. -/
structure Ifnet where
  /-- `if_dname` -/
  dname : Name
  /-- `if_xname` -/
  xname : Name
  deriving DecidableEq, Repr

/-- `if_initname(ifp, name, IF_DUNIT_NONE)`. -/
def ifInitname (name : Name) : Ifnet :=
  ⟨cstring name, (cstring name).take (ifNameSize - 1)⟩

/-- The interface that `create_vos_veth` attaches for a stack. -/
def newIfnet (portid : BitVec 32) : Ifnet := ifInitname (hostIfname (ifname portid))

/-- The loopback interface, which the kernel attaches at its start. -/
def lo0 : Ifnet := ⟨"lo".toList, "lo0".toList⟩

/-- `ifunit_ref(name)`: the first interface of that name. -/
def ifunitRef (ifnet : List Ifnet) (name : Name) : Option ℕ :=
  ifnet.findIdx? fun ifp => ifp.xname == name

/-- The interface that every stack gets. -/
def veth0 : Ifnet := ⟨"veth-0".toList, "veth-0".toList⟩

theorem newIfnet_eq (portid : BitVec 32) : newIfnet portid = veth0 := rfl

/-- The ioctl finds the interface that was made first. -/
theorem ifunitRef_veth0 (k : ℕ) :
    ifunitRef (lo0 :: List.replicate (k + 1) veth0) veth0.dname = some 1 := by
  rw [List.replicate_succ]
  rfl

/-! ### The system -/

/-- An address as the ioctl `SIOCAIFADDR` gets it. -/
structure Address where
  addr : BitVec 32
  mask : BitVec 32
  broadaddr : BitVec 32
  deriving DecidableEq, Repr

/-- A call of the ioctl. -/
structure Request where
  stack : ℕ
  /-- the interface of the stack -/
  own : ℕ
  /-- the interface that the ioctl acts on -/
  target : Option ℕ
  address : Address
  deriving DecidableEq, Repr

structure World (S : Type*) where
  /-- `m_ethernetif_index` -/
  index : BitVec 32
  /-- the stacks, in the order of their creation -/
  ipStacks : List (CFSIPStack S)
  /-- `V_ifnet`, in the order of attachment -/
  ifnet : List Ifnet
  /-- ghost -/
  requests : List Request
  deriving DecidableEq, Repr

variable {S : Type*}

/-- The interface of a stack. -/
def CFSIPStack.ifp (s : CFSIPStack S) : Option ℕ := s.vnet.bind VosVeth.ifp

theorem ifp_setIPAddress {in4 : S → BitVec 32} {s s' : CFSIPStack S}
    {stripaddr stripmask strbroadcast : S}
    (h : s.setIPAddress in4 stripaddr stripmask strbroadcast = some s') : s'.ifp = s.ifp := by
  obtain ⟨sc, hsc, rfl⟩ := Option.map_eq_some_iff.mp h
  rw [CFSIPStack.ifp, CFSIPStack.ifp, hsc]
  rfl

/-- The request that `vos_veth_setaddr` makes for the stack `i`, whose veth has the interface
`own`. -/
def setaddrRequest (ifnet : List Ifnet) (i own : ℕ) (address : Address) : Request :=
  ⟨i, own, ifnet[own]?.bind fun ifp => ifunitRef ifnet ifp.dname, address⟩

inductive Action (S : Type*)
  /-- `CreateIPStack` -/
  | createIPStack (ifname ipaddr ipmask gateway : S)
  /-- `OpenWithLowLevel` of the stack `i` -/
  | openWithLowLevel (i : ℕ) (plowlevel : Option ℕ)
  /-- `SetIPAddress` of the stack `i` -/
  | setIPAddress (i : ℕ) (stripaddr stripmask strbroadcast : S)
  deriving DecidableEq, Repr

def Action.isOpen : Action S → Bool
  | .openWithLowLevel .. => true
  | _ => false

def init : World S := ⟨0, [], [lo0], []⟩

def step [Inhabited S] (in4 : S → BitVec 32) (w : World S) : Action S → Option (World S)
  | .createIPStack ifname ipaddr ipmask gateway =>
    some { w with
      index := w.index + 1
      ipStacks := w.ipStacks ++ [.configured ifname ipaddr ipmask gateway w.index] }
  | .openWithLowLevel i plowlevel =>
    w.ipStacks[i]?.map fun s =>
      let own := w.ifnet.length
      let ifnet := w.ifnet ++ [newIfnet s.portid]
      { w with
        ipStacks := w.ipStacks.set i (s.openWithLowLevel in4 plowlevel own)
        ifnet
        requests := w.requests ++
          [setaddrRequest ifnet i own ⟨in4 s.stripaddr, in4 s.stripmask, 0⟩] }
  | .setIPAddress i stripaddr stripmask strbroadcast =>
    w.ipStacks[i]?.bind fun s =>
      s.ifp.bind fun own =>
        (s.setIPAddress in4 stripaddr stripmask strbroadcast).map fun s' =>
          { w with
            ipStacks := w.ipStacks.set i s'
            requests := w.requests ++ [setaddrRequest w.ifnet i own
              ⟨in4 stripaddr, in4 stripmask, in4 strbroadcast⟩] }

/-! ### The contract -/

/-- Stacks with different ports have interfaces with different names, and every address that was
set through a stack was configured on its own interface. -/
structure AddressesOk (w : World S) : Prop where
  names : ∀ (i j : ℕ) (s t : CFSIPStack S) (a b : ℕ),
    w.ipStacks[i]? = some s → w.ipStacks[j]? = some t → s.portid ≠ t.portid →
    s.ifp = some a → t.ifp = some b → w.ifnet[a]?.map Ifnet.xname ≠ w.ifnet[b]?.map Ifnet.xname
  own : ∀ r ∈ w.requests, r.target = some r.own

/-- What holds after `k` stacks were opened. -/
structure Opened (k : ℕ) (w : World S) : Prop where
  ifnet_eq : w.ifnet = lo0 :: List.replicate k veth0
  ifp_mem : ∀ (i : ℕ) (s : CFSIPStack S) (a : ℕ), w.ipStacks[i]? = some s → s.ifp = some a →
    1 ≤ a ∧ a ≤ k
  /-- two stacks have different interfaces -/
  ifp_inj : ∀ (i j : ℕ) (s t : CFSIPStack S) (a : ℕ), w.ipStacks[i]? = some s →
    w.ipStacks[j]? = some t → s.ifp = some a → t.ifp = some a → i = j
  /-- every request goes to the first interface -/
  target_eq : ∀ r ∈ w.requests, r.target = some 1
  own_mem : ∀ r ∈ w.requests, 1 ≤ r.own ∧ r.own ≤ k
  /-- each opening set an address -/
  exists_own : ∀ a, 1 ≤ a → a ≤ k → ∃ r ∈ w.requests, r.own = a

theorem opened_init : Opened 0 (init : World S) where
  ifnet_eq := rfl
  ifp_mem := nofun
  ifp_inj := nofun
  target_eq := nofun
  own_mem := nofun
  exists_own a h1 h0 := by omega

/-- A request through an interface of a stack goes to the first one. -/
theorem setaddrRequest_target {k i own : ℕ} {address : Address} (h1 : 1 ≤ own) (hk : own ≤ k) :
    (setaddrRequest (lo0 :: List.replicate k veth0) i own address).target = some 1 := by
  obtain ⟨own, rfl⟩ := Nat.exists_eq_add_of_le' h1
  obtain ⟨k, rfl⟩ := Nat.exists_eq_add_of_le' (Nat.le_trans h1 hk)
  have hget : (lo0 :: List.replicate (k + 1) veth0)[own + 1]? = some veth0 := by
    rw [List.getElem?_cons_succ, List.getElem?_replicate, if_pos (by omega)]
  rw [setaddrRequest, hget, Option.bind_some, ifunitRef_veth0]

variable {k : ℕ} {w w' : World S}

/-- With one interface all is well, and the second opening sets its address on the first one. -/
theorem Opened.addressesOk (h : Opened k w) : AddressesOk w ↔ k ≤ 1 := by
  constructor
  · intro hok
    by_contra hk
    obtain ⟨r, hr, hown⟩ := h.exists_own 2 (by omega) (by omega)
    have htarget := (hok.own r hr).symm.trans (h.target_eq r hr)
    rw [hown] at htarget
    exact absurd htarget (by decide)
  · intro hk
    refine ⟨fun i j s t a b hi hj hport ha hb => ?_, fun r hr => ?_⟩
    · -- both stacks would have the one interface
      obtain rfl : a = b := by
        have ha' := h.ifp_mem i s a hi ha
        have hb' := h.ifp_mem j t b hj hb
        omega
      obtain rfl := h.ifp_inj i j s t a hi hj ha hb
      obtain rfl := Option.some.inj (hi.symm.trans hj)
      exact absurd rfl hport
    · have hown := h.own_mem r hr
      rw [h.target_eq r hr, show r.own = 1 by omega]

section runs

variable [Inhabited S] {in4 : S → BitVec 32}

/-- A new stack has no interface. -/
theorem Opened.createIPStack (h : Opened k w) {ifname ipaddr ipmask gateway : S}
    (hs : step in4 w (.createIPStack ifname ipaddr ipmask gateway) = some w') : Opened k w' := by
  obtain rfl := Option.some.inj hs
  have hold : ∀ (j : ℕ) (t : CFSIPStack S) (a : ℕ),
      (w.ipStacks ++ [.configured ifname ipaddr ipmask gateway w.index])[j]? = some t →
      t.ifp = some a → w.ipStacks[j]? = some t := by
    intro j t a ht ha
    obtain ⟨-, rfl⟩ | ht := Table.getElem?_snoc_cases ht
    · exact absurd ha nofun
    · exact ht
  exact {
    ifnet_eq := h.ifnet_eq
    ifp_mem := fun i s a hi ha => h.ifp_mem i s a (hold i s a hi ha) ha
    ifp_inj := fun i j s t a hi hj ha hb =>
      h.ifp_inj i j s t a (hold i s a hi ha) (hold j t a hj hb) ha hb
    target_eq := h.target_eq
    own_mem := h.own_mem
    exists_own := h.exists_own }

/-- The interface of an opened stack is a new one. -/
theorem Opened.openWithLowLevel (h : Opened k w) {i : ℕ} {plowlevel : Option ℕ}
    (hs : step in4 w (.openWithLowLevel i plowlevel) = some w') : Opened (k + 1) w' := by
  obtain ⟨s, hi, rfl⟩ := Option.map_eq_some_iff.mp hs
  have hlen : w.ifnet.length = k + 1 := by
    rw [h.ifnet_eq, List.length_cons, List.length_replicate]
  have hifnet : w.ifnet ++ [newIfnet s.portid] = lo0 :: List.replicate (k + 1) veth0 := by
    rw [h.ifnet_eq, newIfnet_eq, List.cons_append, List.replicate_succ']
  have hnew : (s.openWithLowLevel in4 plowlevel w.ifnet.length).ifp = some (k + 1) :=
    congrArg some hlen
  refine ⟨hifnet, ?_, ?_, ?_, ?_, ?_⟩
  · intro j t a hj ha
    obtain ⟨-, rfl⟩ | ⟨-, hj⟩ := Table.getElem?_set_cases hj
    · obtain rfl := Option.some.inj (hnew.symm.trans ha)
      omega
    · have := h.ifp_mem j t a hj ha
      omega
  · intro j j' t t' a hj hj' ha ha'
    -- an old interface is not the new one
    obtain ⟨rfl, rfl⟩ | ⟨-, hold⟩ := Table.getElem?_set_cases hj <;>
      obtain ⟨rfl, rfl⟩ | ⟨-, hold'⟩ := Table.getElem?_set_cases hj'
    · rfl
    · obtain rfl := Option.some.inj (hnew.symm.trans ha)
      have := h.ifp_mem j' t' _ hold' ha'
      omega
    · obtain rfl := Option.some.inj (hnew.symm.trans ha')
      have := h.ifp_mem j t _ hold ha
      omega
    · exact h.ifp_inj j j' t t' a hold hold' ha ha'
  · refine (forall_mem_snoc_iff h.target_eq).mpr ?_
    rw [hifnet]
    exact setaddrRequest_target (by omega) (by omega)
  · have hmem : ∀ r ∈ w.requests, 1 ≤ r.own ∧ r.own ≤ k + 1 := fun r hr =>
      (h.own_mem r hr).imp_right Nat.le_succ_of_le
    refine (forall_mem_snoc_iff hmem).mpr ?_
    change 1 ≤ w.ifnet.length ∧ w.ifnet.length ≤ k + 1
    omega
  · intro a h1 hk
    by_cases ha : a ≤ k
    · obtain ⟨r, hr, hown⟩ := h.exists_own a h1 ha
      exact ⟨r, List.mem_append_left _ hr, hown⟩
    · refine ⟨_, List.mem_append_right _ (List.mem_singleton_self _), ?_⟩
      change w.ifnet.length = a
      omega

/-- A stack keeps its interface. -/
theorem Opened.setIPAddress (h : Opened k w) {i : ℕ} {stripaddr stripmask strbroadcast : S}
    (hs : step in4 w (.setIPAddress i stripaddr stripmask strbroadcast) = some w') :
    Opened k w' := by
  obtain ⟨s, hi, hs⟩ := Option.bind_eq_some_iff.mp hs
  obtain ⟨own, hown, hs⟩ := Option.bind_eq_some_iff.mp hs
  obtain ⟨s', hs', rfl⟩ := Option.map_eq_some_iff.mp hs
  obtain ⟨h1, hk⟩ := h.ifp_mem i s own hi hown
  have hold : ∀ (j : ℕ) (t : CFSIPStack S), (w.ipStacks.set i s')[j]? = some t →
      ∃ t₀, w.ipStacks[j]? = some t₀ ∧ t.ifp = t₀.ifp := by
    intro j t ht
    obtain ⟨rfl, rfl⟩ | ⟨-, ht⟩ := Table.getElem?_set_cases ht
    · exact ⟨s, hi, ifp_setIPAddress hs'⟩
    · exact ⟨t, ht, rfl⟩
  refine ⟨h.ifnet_eq, ?_, ?_, ?_, ?_, ?_⟩
  · intro j t a ht ha
    obtain ⟨t₀, ht₀, heq⟩ := hold j t ht
    exact h.ifp_mem j t₀ a ht₀ (heq.symm.trans ha)
  · intro j j' t t' a ht ht' ha ha'
    obtain ⟨t₀, ht₀, heq⟩ := hold j t ht
    obtain ⟨t₀', ht₀', heq'⟩ := hold j' t' ht'
    exact h.ifp_inj j j' t₀ t₀' a ht₀ ht₀' (heq.symm.trans ha) (heq'.symm.trans ha')
  · refine (forall_mem_snoc_iff h.target_eq).mpr ?_
    rw [h.ifnet_eq]
    exact setaddrRequest_target h1 hk
  · exact (forall_mem_snoc_iff h.own_mem).mpr ⟨h1, hk⟩
  · intro a ha hak
    obtain ⟨r, hr, hr'⟩ := h.exists_own a ha hak
    exact ⟨r, List.mem_append_left _ hr, hr'⟩

/-- A run adds its openings. -/
theorem Opened.exec {as : List (Action S)} (h : Opened k w)
    (hs : exec (step in4) w as = some w') : Opened (k + as.countP Action.isOpen) w' := by
  induction as generalizing k w with
  | nil =>
    obtain rfl := Option.some.inj hs
    exact h
  | cons a as ih =>
    obtain ⟨w₁, ha, has⟩ := Option.bind_eq_some_iff.mp hs
    rw [List.countP_cons]
    cases a with
    | createIPStack ifname ipaddr ipmask gateway => exact ih (h.createIPStack ha) has
    | openWithLowLevel i plowlevel =>
      rw [Nat.add_comm (as.countP Action.isOpen), ← Nat.add_assoc]
      exact ih (h.openWithLowLevel ha) has
    | setIPAddress i stripaddr stripmask strbroadcast => exact ih (h.setIPAddress ha) has

/-- **The interfaces of the stacks.** After a run, the names are different and the addresses are
where they belong exactly when no more than one stack was opened. -/
theorem addressesOk_iff (in4 : S → BitVec 32) (as : List (Action S))
    (hs : exec (step in4) init as = some w) :
    AddressesOk w ↔ as.countP Action.isOpen ≤ 1 := by
  have h := opened_init.exec hs
  rw [Nat.zero_add] at h
  exact h.addressesOk

end runs

/-- Two stacks, the second opened and given an address. An address stands for its string. -/
def oneOpened : List (Action (BitVec 32)) :=
  [.createIPStack 0 1 2 3, .createIPStack 0 4 5 6, .openWithLowLevel 1 (some 7),
    .setIPAddress 1 7 8 9]

theorem addressesOk_iff_oneOpened :
    ∃ w, exec (step id) init oneOpened = some w ∧ AddressesOk w :=
  ⟨_, rfl, (addressesOk_iff id oneOpened rfl).mpr (by decide)⟩

/-- Two stacks with the ports 0 and 1, both opened: the address of the second one is set on the
interface of the first one. -/
theorem shared_name :
    ∃ w : World (BitVec 32), exec (step id) init [.createIPStack 0 1 2 3, .createIPStack 0 4 5 6,
        .openWithLowLevel 0 (some 7), .openWithLowLevel 1 (some 7)] = some w ∧
      w.ipStacks.map (fun s => (s.portid, s.ifp)) = [(0, some 1), (1, some 2)] ∧
      w.requests.map (fun r => (r.stack, r.target)) = [(0, some 1), (1, some 1)] ∧
      ¬ AddressesOk w := by
  refine ⟨_, rfl, rfl, rfl, fun h => ?_⟩
  exact absurd rfl (h.names 0 1 _ _ 1 2 rfl rfl (by decide) rfl rfl)

end VosStack.Veth
