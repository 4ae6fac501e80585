import VosStack.Transition.Run
import VosStack.Veth.Stack

/-!
# The address settings of an IP stack

An opened IP stack keeps its address, netmask and gateway twice: as the strings it was given, which
`GetIPAddress` returns, and as the numbers in its veth. They are to be **independent cells**: each
holds what the last call that names it gave, whatever else was called.

The setters write different copies. `SetIP` writes its address to the *gateway* of the veth, and
not to its address; `SetIPNetMask` writes the string only; `SetGateway` writes the veth only; and
`SetIPAddress`, whose third parameter is the gateway in the interface of the class and the broadcast
address in its body, sets that instead. A call is harmless only where the other copy has the right
value already.

The strings are of any type, with the numbers that `CAWInetAddr` makes of them as a parameter.
-/

namespace VosStack.Veth

open Transition

/-! ### The cells -/

/-- What the calls set. -/
inductive Cell
  | ip
  | netmask
  | gateway
  deriving DecidableEq, Repr

/-- The calls of the interface. -/
inductive Call (S : Type*)
  | setIP (ipaddr : S)
  | setIPNetMask (ipnetmask : S)
  | setGateway (ipgw : S)
  | setIPAddress (ipaddr ipmask gateway : S)
  deriving DecidableEq, Repr

variable {S : Type*}

/-- What a call gives for a cell, if it names it. -/
def Call.gives : Call S → Cell → Option S
  | .setIP ipaddr, .ip => some ipaddr
  | .setIPNetMask ipnetmask, .netmask => some ipnetmask
  | .setGateway ipgw, .gateway => some ipgw
  | .setIPAddress ipaddr _ _, .ip => some ipaddr
  | .setIPAddress _ ipmask _, .netmask => some ipmask
  | .setIPAddress _ _ gateway, .gateway => some gateway
  | _, _ => none

/-- The cells after a call. -/
def give (given : Cell → S) (a : Call S) (c : Cell) : S := (a.gives c).getD (given c)

/-- A call of the interface. -/
def CFSIPStack.call (in4 : S → BitVec 32) (s : CFSIPStack S) : Call S → Option (CFSIPStack S)
  | .setIP ipaddr => s.setIP in4 ipaddr
  | .setIPNetMask ipnetmask => some (s.setIPNetMask ipnetmask)
  | .setGateway ipgw => s.setGateway in4 ipgw
  | .setIPAddress ipaddr ipmask gateway => s.setIPAddress in4 ipaddr ipmask gateway

/-! ### Both together -/

/-- A stack beside the cells its settings are to be. -/
structure Paired (S : Type*) where
  stack : CFSIPStack S
  given : Cell → S

namespace Paired

variable (in4 : S → BitVec 32)

/-- A stack that was opened; the strings it was made with are what is given first. -/
def opened (s : CFSIPStack S) (plowlevel : Option ℕ) (ifp : ℕ) : Paired S where
  stack := s.openWithLowLevel in4 plowlevel ifp
  given
    | .ip => s.stripaddr
    | .netmask => s.stripmask
    | .gateway => s.strgateway

def step (w : Paired S) (a : Call S) : Option (Paired S) :=
  (w.stack.call in4 a).map fun s => ⟨s, give w.given a⟩

/-- The settings are the cells: the veth has the numbers last given, `GetIPAddress` returns the
strings, and the broadcast address, which no call names, is that of the opening. -/
structure AsGiven (w : Paired S) : Prop where
  ip : w.stack.vnet.map VosVeth.ip = some (in4 (w.given .ip))
  netmask : w.stack.vnet.map VosVeth.netmask = some (in4 (w.given .netmask))
  gateway : w.stack.vnet.map VosVeth.gateway = some (in4 (w.given .gateway))
  broadcast : w.stack.vnet.map VosVeth.broadcast = some 0
  returned : w.stack.getIPAddress = (w.given .ip, w.given .netmask, w.given .gateway)

/-- What a call needs to do no more and no less than it says. -/
def Harmless (w : Paired S) : Call S → Prop
  | .setIP ipaddr =>
    w.stack.vnet.map VosVeth.ip = some (in4 ipaddr) ∧
      w.stack.vnet.map VosVeth.gateway = some (in4 ipaddr)
  | .setIPNetMask ipnetmask => w.stack.vnet.map VosVeth.netmask = some (in4 ipnetmask)
  | .setGateway ipgw => w.stack.strgateway = ipgw
  | .setIPAddress _ _ gateway =>
    w.stack.strgateway = gateway ∧ w.stack.vnet.map VosVeth.broadcast = some (in4 gateway)

variable {in4} {w : Paired S}

theorem asGiven_opened (s : CFSIPStack S) (plowlevel : Option ℕ) (ifp : ℕ) :
    AsGiven in4 (opened in4 s plowlevel ifp) :=
  ⟨rfl, rfl, rfl, rfl, rfl⟩

/-- An opened stack takes every call, and stays open. -/
theorem exists_step (h : w.stack.vnet ≠ none) (a : Call S) :
    ∃ w', step in4 w a = some w' ∧ w'.stack.vnet ≠ none := by
  obtain ⟨sc, hsc⟩ := Option.ne_none_iff_exists'.mp h
  cases a <;> simp [step, CFSIPStack.call, CFSIPStack.setIP, CFSIPStack.setIPNetMask,
    CFSIPStack.setGateway, CFSIPStack.setIPAddress, hsc]

theorem exec_ne_none {calls : List (Call S)} (h : w.stack.vnet ≠ none) :
    exec (step in4) w calls ≠ none := by
  induction calls generalizing w with
  | nil => exact nofun
  | cons a calls ih =>
    obtain ⟨w', hw', h'⟩ : ∃ w', step in4 w a = some w' ∧ w'.stack.vnet ≠ none := exists_step h a
    rw [exec, hw']
    exact ih h'

/-- **One call**, from settings that are the cells: it leads to such settings exactly when the copy
it does not write, or writes by mistake, has the value already. -/
theorem AsGiven.harmless_iff (h : AsGiven in4 w) (a : Call S) :
    Harmless in4 w a ↔ ∀ w' ∈ step in4 w a, AsGiven in4 w' := by
  obtain ⟨haddr, hmask, hgw⟩ := CFSIPStack.getIPAddress_eq_iff.mp h.returned
  obtain ⟨⟨ifname, portid, psend, rx, stripaddr, stripmask, strgateway, strbroadcast, vnet⟩,
    given⟩ := w
  obtain _ | sc := vnet
  · exact absurd h.ip nofun
  cases a with
  | setIP ipaddr =>
    refine Iff.trans ⟨?_, ?_⟩ forall_mem_some_iff.symm
    · rintro ⟨hip, hgateway⟩
      have hcell : in4 ipaddr = in4 (given .gateway) :=
        Option.some.inj (hgateway.symm.trans h.gateway)
      exact ⟨hip, h.netmask, congrArg some hcell, h.broadcast,
        CFSIPStack.getIPAddress_eq_iff.mpr ⟨rfl, hmask, hgw⟩⟩
    · intro h'
      have hcell : in4 ipaddr = in4 (given .gateway) := Option.some.inj h'.gateway
      exact ⟨h'.ip, h.gateway.trans (congrArg some hcell.symm)⟩
  | setIPNetMask ipnetmask =>
    refine Iff.trans ⟨?_, ?_⟩ forall_mem_some_iff.symm
    · intro hnetmask
      exact ⟨h.ip, hnetmask, h.gateway, h.broadcast,
        CFSIPStack.getIPAddress_eq_iff.mpr ⟨haddr, rfl, hgw⟩⟩
    · intro h'
      exact h'.netmask
  | setGateway ipgw =>
    refine Iff.trans ⟨?_, ?_⟩ forall_mem_some_iff.symm
    · intro hgateway
      exact ⟨h.ip, h.netmask, rfl, h.broadcast,
        CFSIPStack.getIPAddress_eq_iff.mpr ⟨haddr, hmask, hgateway⟩⟩
    · intro h'
      exact (CFSIPStack.getIPAddress_eq_iff.mp h'.returned).2.2
  | setIPAddress ipaddr ipmask gateway =>
    refine Iff.trans ⟨?_, ?_⟩ forall_mem_some_iff.symm
    · rintro ⟨hgateway, hbroadcast⟩
      have hcell : some sc.gateway = some (in4 gateway) := by
        rw [← hgateway, hgw]
        exact h.gateway
      exact ⟨rfl, rfl, hcell, hbroadcast.symm.trans h.broadcast,
        CFSIPStack.getIPAddress_eq_iff.mpr ⟨rfl, rfl, hgateway⟩⟩
    · intro h'
      have hzero : some (in4 gateway) = some 0 := h'.broadcast
      exact ⟨(CFSIPStack.getIPAddress_eq_iff.mp h'.returned).2.2, h.broadcast.trans hzero.symm⟩

/-- **The settings along a run.** Whatever stack is opened and whatever is called: the settings are
the cells after every call exactly when every call is harmless. An opened stack takes all calls. -/
theorem always_asGiven_iff (in4 : S → BitVec 32) (s : CFSIPStack S) (plowlevel : Option ℕ) (ifp : ℕ)
    (calls : List (Call S)) :
    (Always (step in4) (AsGiven in4) (opened in4 s plowlevel ifp) calls ↔
      Admitted (step in4) (Harmless in4) (opened in4 s plowlevel ifp) calls) ∧
    exec (step in4) (opened in4 s plowlevel ifp) calls ≠ none := by
  refine ⟨always_iff_admitted (fun _ h => h) ?_ ?_ calls (asGiven_opened ..), exec_ne_none nofun⟩
  · intro w a h
    exact h.harmless_iff a
  · intro w a w' _ _ h'
    exact h'

end Paired

/-- An IPv4 address in dotted form. -/
structure Dotted where
  (a b c d : BitVec 8)
  deriving DecidableEq, Repr

/-- The four bytes of an address, in network order. -/
def Dotted.in4 (s : Dotted) : BitVec 32 := s.d ++ s.c ++ s.b ++ s.a

/-- The stack with 10.0.0.1/255.255.255.0 and the gateway 10.0.0.254. -/
def tenStack : CFSIPStack Dotted :=
  ⟨⟨0, 0, 0, 0⟩, 0, none, 0, ⟨10, 0, 0, 1⟩, ⟨255, 255, 255, 0⟩, ⟨10, 0, 0, 254⟩, ⟨0, 0, 0, 0⟩, none⟩

/-- The stack is given the address 10.0.0.2: its veth keeps the old address and has the new one as
its gateway. It is given the gateway 10.0.0.9, and says it still has the old one. -/
theorem Paired.setIP_sets_gateway :
    let w := opened Dotted.in4 tenStack (some 7) 1
    (∃ w', exec (step Dotted.in4) w [.setIP ⟨10, 0, 0, 2⟩] = some w' ∧
      w'.stack.vnet.map VosVeth.ip = some (Dotted.in4 ⟨10, 0, 0, 1⟩) ∧
      w'.stack.vnet.map VosVeth.gateway = some (Dotted.in4 ⟨10, 0, 0, 2⟩) ∧
      ¬ AsGiven Dotted.in4 w') ∧
    ∃ w', exec (step Dotted.in4) w [.setGateway ⟨10, 0, 0, 9⟩] = some w' ∧
      w'.stack.getIPAddress.2.2 = ⟨10, 0, 0, 254⟩ ∧ ¬ AsGiven Dotted.in4 w' := by
  refine ⟨⟨_, rfl, rfl, rfl, fun h => ?_⟩, ⟨_, rfl, rfl, fun h => ?_⟩⟩
  · exact absurd h.ip (by decide)
  · exact absurd (CFSIPStack.getIPAddress_eq_iff.mp h.returned).2.2 (by decide)

end VosStack.Veth
