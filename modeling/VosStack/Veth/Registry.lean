import VosStack.Table.Index
import VosStack.Transition.Run
import VosStack.Veth.Stack

/-!
# The registry of the IP stacks

`CFSIPStackLib` numbers the stacks it creates with a counter and keeps them in an unordered map
under that number, their **port id**, until they are destroyed. Three things carry the identity of a
stack: the counter, the key in the map and the id in the stack itself; they are changed by different
functions. While the counter has not come around, which takes `2 ^ 32` stacks, the map is an index
of the ids of the live stacks, and that is what the lookups rest on.

A stack is its position among all stacks ever created. The map is iterated in any order. That a
packet reaches a stack is said by the calls of the low levels that are made for it: there is one,
with this packet, exactly if the stack has a low level.
-/

namespace VosStack.IPStackLib

open Transition Veth

/-! ### The registry -/

/-- `CFSIPStackLib`. -/
structure CFSIPStackLib where
  /-- `m_ethernetif_index` -/
  ethernetifIndex : BitVec 32
  /-- `m_iflist` -/
  iflist : BitVec 32 → Option ℕ
  /-- the stacks ever created -/
  created : List (CFSIPStack String)
  /-- the stacks destroyed -/
  destroyed : List ℕ

/-- An order in which the entries of a map are visited. -/
structure Order (iflist : BitVec 32 → Option ℕ) where
  entries : List (BitVec 32 × ℕ)
  mem_iff : ∀ k i, (k, i) ∈ entries ↔ iflist k = some i

namespace CFSIPStackLib

def init : CFSIPStackLib := ⟨0, fun _ => none, [], []⟩

variable (lib : CFSIPStackLib)

def portid? (i : ℕ) : Option (BitVec 32) := lib.created[i]?.map CFSIPStack.portid

def ifname? (i : ℕ) : Option String := lib.created[i]?.map CFSIPStack.ifname

/-- The stack `i` was created and not destroyed. -/
def Live (i : ℕ) : Prop := i < lib.created.length ∧ i ∉ lib.destroyed

instance (i : ℕ) : Decidable (lib.Live i) := inferInstanceAs (Decidable (_ ∧ _))

/-- Both forms of `CreateIPStack`, with the constructor they call; `new` is whether there is memory
for the stack. -/
def create (pstack : BitVec 32 → CFSIPStack String) (new : Bool) : CFSIPStackLib × Option ℕ :=
  if new then
    ({ lib with
        iflist := Function.update lib.iflist lib.ethernetifIndex (some lib.created.length)
        ethernetifIndex := lib.ethernetifIndex + 1
        created := lib.created ++ [pstack lib.ethernetifIndex] },
      some lib.created.length)
  else (lib, none)

/-- `CreateIPStack` with a name. -/
def createIPStack (ifname : String) (new : Bool) : CFSIPStackLib × Option ℕ :=
  lib.create (.named ifname) new

/-- `CreateIPStack` with a name and addresses. -/
def createIPStackWith (ifname ipaddr ipmask gateway : String) (new : Bool) :
    CFSIPStackLib × Option ℕ :=
  lib.create (.configured ifname ipaddr ipmask gateway) new

/-- `GetIPStack`. -/
def getIPStack (order : Order lib.iflist) (strifname : String) : Option ℕ :=
  (order.entries.find? fun e => lib.ifname? e.2 == some strifname).map Prod.snd

/-- `DestroyIPStack`. -/
def destroyIPStack : Option ℕ → CFSIPStackLib
  | none => lib
  | some i =>
    match (lib.portid? i).bind fun index => (lib.iflist index).map fun _ => index with
    | none => lib
    | some index => { lib with iflist := Function.update lib.iflist index none }

/-- `LowlevelOutput`: the registry, the result, and the calls of a low level that were made. -/
def lowlevelOutput (pkt : Option Bytes) (pktsize : BitVec 64) (portno : BitVec 32)
    (rv : Output → CAWResult) : CFSIPStackLib × CAWResult × List Output :=
  match pkt with
  | none => (lib, .failure, [])
  | some pkt =>
    if pktsize = 0 then (lib, .failure, [])
    else
      match (lib.iflist portno).bind fun i => lib.created[i]?.map fun s => (i, s) with
      | none => (lib, .failure, [])
      | some (i, s) =>
        -- the port is passed on as a byte
        let out := s.ipStackLowLevelOutput pkt pktsize (portno.setWidth 8) rv
        ({ lib with created := lib.created.set i out.1 }, out.2)

end CFSIPStackLib

/-! ### Runs -/

/-- The calls. `in4` has the numbers that the addresses of a stack stand for, and `ifp` is the
interface that its veth gets. -/
inductive Action
  | createIPStack (ifname : String) (new : Bool)
  | createIPStackWith (ifname ipaddr ipmask gateway : String) (new : Bool)
  | openWithLowLevel (i : ℕ) (plowlevel : Option ℕ) (in4 : String → BitVec 32) (ifp : ℕ)
  | destroyIPStack (pstack : Option ℕ)
  | lowlevelOutput (pkt : Option Bytes) (pktsize : BitVec 64) (portno : BitVec 32)
      (rv : Output → CAWResult)

def Action.isCreate : Action → Bool
  | .createIPStack .. | .createIPStackWith .. => true
  | _ => false

namespace CFSIPStackLib

/-- One call. Only live stacks are opened and destroyed. -/
def step (lib : CFSIPStackLib) : Action → Option CFSIPStackLib
  | .createIPStack ifname new => some (lib.createIPStack ifname new).1
  | .createIPStackWith ifname ipaddr ipmask gateway new =>
    some (lib.createIPStackWith ifname ipaddr ipmask gateway new).1
  | .openWithLowLevel i plowlevel in4 ifp =>
    if lib.Live i then
      lib.created[i]?.map fun s =>
        { lib with created := lib.created.set i (s.openWithLowLevel in4 plowlevel ifp) }
    else none
  | .destroyIPStack none => some (lib.destroyIPStack none)
  | .destroyIPStack (some i) =>
    if lib.Live i then
      some { lib.destroyIPStack (some i) with destroyed := lib.destroyed ++ [i] }
    else none
  | .lowlevelOutput pkt pktsize portno rv => some (lib.lowlevelOutput pkt pktsize portno rv).1

/-- **A packet reaches the stack `i`**: the low level of the stack, if it has one, is called with
the packet, its size and the port as a byte, and no other is. The call succeeds if it does, the
stack counts it then, and nothing else is changed. -/
structure Reaches (lib : CFSIPStackLib) (pkt : Bytes) (pktsize : BitVec 64) (portno : BitVec 32)
    (rv : Output → CAWResult) (i : ℕ) (s : CFSIPStack String)
    (out : CFSIPStackLib × CAWResult × List Output) : Prop where
  calls : out.2.2 = s.psend.toList.map fun plowlevel => ⟨plowlevel, pkt, pktsize, portno.setWidth 8⟩
  result : out.2.1 = if ∃ o ∈ out.2.2, ¬(rv o).failed then .ok else .failure
  counted : out.1.created[i]? = some (if out.2.1 = .ok then s.txInc else s)
  others : ∀ j, j ≠ i → out.1.created[j]? = lib.created[j]?
  iflist : out.1.iflist = lib.iflist

/-- **What the registry is for.** -/
structure Exact (lib : CFSIPStackLib) : Prop where
  /-- the map has the live stacks, each under its own id -/
  stored : ∀ k i, lib.iflist k = some i ↔ lib.Live i ∧ lib.portid? i = some k
  /-- no two stacks share an id -/
  distinct : ∀ i j k, lib.portid? i = some k → lib.portid? j = some k → i = j
  /-- a stack that is destroyed is taken out, and no other -/
  removes : ∀ i, lib.Live i → ∀ k j,
    (lib.destroyIPStack (some i)).iflist k = some j ↔ lib.iflist k = some j ∧ j ≠ i
  /-- what is found by its name is live and has the name -/
  found : ∀ order name i, lib.getIPStack order name = some i →
    lib.Live i ∧ lib.ifname? i = some name
  /-- what is not found is not there -/
  notFound : ∀ order name, lib.getIPStack order name = none →
    ∀ i, lib.Live i → lib.ifname? i ≠ some name
  /-- a packet for an id reaches the live stack with that id -/
  reaches : ∀ pkt pktsize portno rv, pktsize ≠ 0 → ∀ i s, lib.Live i → lib.created[i]? = some s →
    s.portid = portno →
    lib.Reaches pkt pktsize portno rv i s (lib.lowlevelOutput (some pkt) pktsize portno rv)
  /-- and fails, with no call made, if there is none -/
  fails : ∀ pkt pktsize portno rv, (∀ i, lib.Live i → lib.portid? i ≠ some portno) →
    lib.lowlevelOutput pkt pktsize portno rv = (lib, .failure, [])

/-- The ids of the live stacks: the `i`-th stack has the id `i`. -/
def ids (lib : CFSIPStackLib) (i : ℕ) : Option (BitVec 32) :=
  if lib.Live i then some (BitVec.ofNat 32 i) else none

/-- The counter, the stacks and the map agree. -/
structure Numbered (lib : CFSIPStackLib) : Prop where
  index_eq : lib.ethernetifIndex = BitVec.ofNat 32 lib.created.length
  portid_eq : ∀ i s, lib.created[i]? = some s → s.portid = BitVec.ofNat 32 i
  destroyed_lt : ∀ i ∈ lib.destroyed, i < lib.created.length
  index : Table.Index lib.ids lib.iflist

theorem numbered_init : init.Numbered where
  index_eq := rfl
  portid_eq := nofun
  destroyed_lt := nofun
  index := by
    intro k i
    refine iff_of_false nofun ?_
    rw [ids, if_neg fun h : init.Live i => Nat.not_lt_zero i h.1]
    exact nofun

section steps

variable {lib lib' : CFSIPStackLib} {i j : ℕ} {k : BitVec 32}

theorem ids_eq_some_iff : lib.ids i = some k ↔ lib.Live i ∧ BitVec.ofNat 32 i = k := by
  rw [ids, Option.ite_none_right_eq_some, Option.some.injEq]

/-- Ids below the size of the counter are different. -/
theorem ofNat_inj (hi : i < 4294967296) (hj : j < 4294967296)
    (h : BitVec.ofNat 32 i = BitVec.ofNat 32 j) : i = j := by
  have := congrArg BitVec.toNat h
  rw [BitVec.toNat_ofNat, BitVec.toNat_ofNat] at this
  omega

theorem Numbered.portid?_eq_some_iff (h : lib.Numbered) :
    lib.portid? i = some k ↔ i < lib.created.length ∧ BitVec.ofNat 32 i = k := by
  constructor
  · intro hk
    obtain ⟨s, hs, rfl⟩ := Option.map_eq_some_iff.mp hk
    exact ⟨(List.getElem?_eq_some_iff.mp hs).1, (h.portid_eq i s hs).symm⟩
  · rintro ⟨hi, rfl⟩
    have hs := List.getElem?_eq_getElem hi
    exact Option.map_eq_some_iff.mpr ⟨_, hs, h.portid_eq i _ hs⟩

/-- The map has the live stacks under their ids. -/
theorem Numbered.stored (h : lib.Numbered) :
    lib.iflist k = some i ↔ lib.Live i ∧ lib.portid? i = some k := by
  rw [h.index k i, ids_eq_some_iff, h.portid?_eq_some_iff]
  exact ⟨fun hi => ⟨hi.1, hi.1.1, hi.2⟩, fun hi => ⟨hi.1, hi.2.2⟩⟩

/-- A new stack gets the next id. -/
theorem Numbered.createNew (h : lib.Numbered) (hlt : lib.created.length < 4294967296)
    {pstack : BitVec 32 → CFSIPStack String} (hp : ∀ index, (pstack index).portid = index) :
    (lib.create pstack true).1.Numbered := by
  -- the counter is not the id of a live stack yet
  have hfree : lib.iflist lib.ethernetifIndex = none := by
    refine Option.eq_none_iff_forall_ne_some.mpr fun i hi => ?_
    obtain ⟨hlive, hid⟩ := ids_eq_some_iff.mp ((h.index _ i).mp hi)
    have heq := ofNat_inj (Nat.lt_trans hlive.1 hlt) hlt (hid.trans h.index_eq)
    exact Nat.ne_of_lt hlive.1 heq
  have hnew : lib.ids lib.created.length = none := if_neg fun hl => Nat.lt_irrefl _ hl.1
  have hids : (lib.create pstack true).1.ids =
      Function.update lib.ids lib.created.length (some lib.ethernetifIndex) := by
    funext j
    have hlive : (lib.create pstack true).1.Live j ↔
        j < lib.created.length + 1 ∧ j ∉ lib.destroyed := by
      simp only [Live, CFSIPStackLib.create, if_true, List.length_append, List.length_singleton]
    by_cases hj : j = lib.created.length
    · subst hj
      rw [Function.update_self, ids, if_pos (hlive.mpr ⟨Nat.lt_succ_self _, fun hd =>
        Nat.lt_irrefl _ (h.destroyed_lt _ hd)⟩), h.index_eq]
    · rw [Function.update_of_ne hj, ids, ids]
      refine if_congr ?_ rfl rfl
      rw [hlive, Live]
      refine and_congr_left' ?_
      omega
  refine ⟨?_, ?_, ?_, ?_⟩
  · change lib.ethernetifIndex + 1 = BitVec.ofNat 32 (lib.created ++ [_]).length
    rw [h.index_eq, List.length_append, List.length_singleton, BitVec.ofNat_add]
    rfl
  · intro j s hs
    obtain ⟨rfl, rfl⟩ | hs := Table.getElem?_snoc_cases hs
    · exact (hp _).trans h.index_eq
    · exact h.portid_eq j s hs
  · intro j hj
    change j < (lib.created ++ [_]).length
    rw [List.length_append]
    exact Nat.lt_add_right 1 (h.destroyed_lt j hj)
  · rw [hids]
    exact h.index.insert hnew hfree

theorem Numbered.create (h : lib.Numbered) (hlt : lib.created.length < 4294967296)
    {pstack : BitVec 32 → CFSIPStack String} (hp : ∀ index, (pstack index).portid = index)
    (new : Bool) : (lib.create pstack new).1.Numbered := by
  cases new with
  | false => exact h
  | true => exact h.createNew hlt hp

/-- A stack keeps its id. -/
theorem Numbered.set (h : lib.Numbered) {s s' : CFSIPStack String} (hi : lib.created[i]? = some s)
    (hs : s'.portid = s.portid) : Numbered { lib with created := lib.created.set i s' } := by
  have hlen : (lib.created.set i s').length = lib.created.length := List.length_set
  refine ⟨?_, ?_, ?_, ?_⟩
  · change lib.ethernetifIndex = BitVec.ofNat 32 (lib.created.set i s').length
    rw [hlen, h.index_eq]
  · intro j t ht
    obtain ⟨rfl, rfl⟩ | ⟨-, ht⟩ := Table.getElem?_set_cases ht
    · exact hs.trans (h.portid_eq j s hi)
    · exact h.portid_eq j t ht
  · intro j hj
    change j < (lib.created.set i s').length
    rw [hlen]
    exact h.destroyed_lt j hj
  · have hids : ids { lib with created := lib.created.set i s' } = lib.ids := by
      funext j
      rw [ids, ids]
      refine if_congr ?_ rfl rfl
      simp only [Live, hlen]
    rw [hids]
    exact h.index

/-- A live stack is found under its id and erased. -/
theorem Numbered.destroyIPStack_eq (h : lib.Numbered) (hi : lib.Live i) :
    lib.destroyIPStack (some i) =
      { lib with iflist := Function.update lib.iflist (BitVec.ofNat 32 i) none } := by
  have hport : lib.portid? i = some (BitVec.ofNat 32 i) := h.portid?_eq_some_iff.mpr ⟨hi.1, rfl⟩
  have hmem : lib.iflist (BitVec.ofNat 32 i) = some i := h.stored.mpr ⟨hi, hport⟩
  rw [destroyIPStack, hport, Option.bind_some, hmem, Option.map_some]

/-- A destroyed stack leaves the map. -/
theorem Numbered.destroy (h : lib.Numbered) (hi : lib.Live i) :
    Numbered { lib.destroyIPStack (some i) with destroyed := lib.destroyed ++ [i] } := by
  rw [h.destroyIPStack_eq hi]
  refine ⟨h.index_eq, h.portid_eq, ?_, ?_⟩
  · intro j hj
    obtain hj | hj := List.mem_append.mp hj
    · exact h.destroyed_lt j hj
    · rw [List.mem_singleton.mp hj]
      exact hi.1
  · have hids : ids { lib with
        iflist := Function.update lib.iflist (BitVec.ofNat 32 i) none
        destroyed := lib.destroyed ++ [i] } = Function.update lib.ids i none := by
      funext j
      by_cases hj : j = i
      · subst hj
        rw [Function.update_self]
        refine if_neg fun hl => hl.2 ?_
        exact List.mem_append_right _ (List.mem_singleton_self j)
      · rw [Function.update_of_ne hj, ids, ids]
        refine if_congr ?_ rfl rfl
        simp only [Live, List.mem_append, List.mem_singleton, hj, or_false]
    rw [hids]
    exact h.index.remove (ids_eq_some_iff.mpr ⟨hi, rfl⟩)

theorem lowlevelOutput_of_none {portno : BitVec 32} (hnone : lib.iflist portno = none)
    (pkt : Option Bytes) (pktsize : BitVec 64) (rv : Output → CAWResult) :
    lib.lowlevelOutput pkt pktsize portno rv = (lib, .failure, []) := by
  cases pkt with
  | none => rfl
  | some pkt =>
    rw [lowlevelOutput, hnone, Option.bind_none]
    split_ifs <;> rfl

/-- A packet is given to the stack that the map has for its port. -/
theorem lowlevelOutput_of_some {portno : BitVec 32} {s : CFSIPStack String} {pktsize : BitVec 64}
    (hi : lib.iflist portno = some i) (hs : lib.created[i]? = some s) (hsize : pktsize ≠ 0)
    (pkt : Bytes) (rv : Output → CAWResult) :
    lib.lowlevelOutput (some pkt) pktsize portno rv =
      ({ lib with
          created := lib.created.set i
            (s.ipStackLowLevelOutput pkt pktsize (portno.setWidth 8) rv).1 },
        (s.ipStackLowLevelOutput pkt pktsize (portno.setWidth 8) rv).2) := by
  rw [lowlevelOutput, if_neg hsize, hi, Option.bind_some, hs, Option.map_some]

theorem reaches_of_stored {portno : BitVec 32} {s : CFSIPStack String} {pktsize : BitVec 64}
    (hi : lib.iflist portno = some i) (hs : lib.created[i]? = some s) (hsize : pktsize ≠ 0)
    (pkt : Bytes) (rv : Output → CAWResult) :
    lib.Reaches pkt pktsize portno rv i s (lib.lowlevelOutput (some pkt) pktsize portno rv) := by
  obtain ⟨hcalls, hresult⟩ := s.ipStackLowLevelOutput_snd pkt pktsize (portno.setWidth 8) rv
  rw [lowlevelOutput_of_some hi hs hsize]
  refine ⟨hcalls, hresult, ?_, ?_, rfl⟩
  · dsimp only
    rw [List.getElem?_set_self (List.getElem?_eq_some_iff.mp hs).1,
      ← CFSIPStack.ipStackLowLevelOutput_fst]
  · intro j hj
    exact List.getElem?_set_ne (Ne.symm hj)

/-- Either nothing is changed, or the stack that is called is. -/
theorem lowlevelOutput_cases (lib : CFSIPStackLib) (pkt : Option Bytes) (pktsize : BitVec 64)
    (portno : BitVec 32) (rv : Output → CAWResult) :
    (lib.lowlevelOutput pkt pktsize portno rv).1 = lib ∨
      ∃ i s s', lib.created[i]? = some s ∧ s'.portid = s.portid ∧
        (lib.lowlevelOutput pkt pktsize portno rv).1 =
          { lib with created := lib.created.set i s' } := by
  cases pkt with
  | none => exact .inl rfl
  | some pkt =>
    by_cases hsize : pktsize = 0
    · rw [lowlevelOutput, if_pos hsize]
      exact .inl rfl
    · cases hi : lib.iflist portno with
      | none =>
        rw [lowlevelOutput_of_none hi]
        exact .inl rfl
      | some i =>
        cases hs : lib.created[i]? with
        | none =>
          rw [lowlevelOutput, if_neg hsize, hi, Option.bind_some, hs]
          exact .inl rfl
        | some s =>
          rw [lowlevelOutput_of_some hi hs hsize]
          exact .inr ⟨i, s, _, hs, s.portid_ipStackLowLevelOutput pkt pktsize _ rv, rfl⟩

theorem Numbered.lowlevelOutput (h : lib.Numbered) (pkt : Option Bytes) (pktsize : BitVec 64)
    (portno : BitVec 32) (rv : Output → CAWResult) :
    (lib.lowlevelOutput pkt pktsize portno rv).1.Numbered := by
  obtain heq | ⟨i, s, s', hi, hs, heq⟩ := lib.lowlevelOutput_cases pkt pktsize portno rv
  · rw [heq]
    exact h
  · rw [heq]
    exact h.set hi hs

/-- **One call** keeps the numbering while the counter has room. -/
theorem Numbered.step {a : Action} (h : lib.Numbered) (hlt : lib.created.length < 4294967296)
    (hs : lib.step a = some lib') : lib'.Numbered := by
  cases a with
  | createIPStack ifname new =>
    cases hs
    exact h.create hlt (fun _ => rfl) new
  | createIPStackWith ifname ipaddr ipmask gateway new =>
    cases hs
    exact h.create hlt (fun _ => rfl) new
  | openWithLowLevel i plowlevel in4 ifp =>
    obtain ⟨-, hs⟩ := Option.ite_none_right_eq_some.mp hs
    obtain ⟨s, hi, rfl⟩ := Option.map_eq_some_iff.mp hs
    exact h.set hi rfl
  | destroyIPStack pstack =>
    cases pstack with
    | none =>
      cases hs
      exact h
    | some i =>
      obtain ⟨hi, ⟨⟩⟩ := Option.ite_none_right_eq_some.mp hs
      exact h.destroy hi
  | lowlevelOutput pkt pktsize portno rv =>
    cases hs
    exact h.lowlevelOutput pkt pktsize portno rv

theorem length_create {pstack : BitVec 32 → CFSIPStack String} {new : Bool} :
    (lib.create pstack new).1.created.length ≤ lib.created.length + 1 := by
  rw [CFSIPStackLib.create]
  split_ifs
  · exact Nat.le_of_eq List.length_append
  · exact Nat.le_succ _

theorem created_destroyIPStack (p : Option ℕ) : (lib.destroyIPStack p).created = lib.created := by
  cases p with
  | none => rfl
  | some i =>
    rw [destroyIPStack]
    split <;> rfl

theorem length_lowlevelOutput (pkt : Option Bytes) (pktsize : BitVec 64) (portno : BitVec 32)
    (rv : Output → CAWResult) :
    (lib.lowlevelOutput pkt pktsize portno rv).1.created.length = lib.created.length := by
  obtain heq | ⟨i, s, s', -, -, heq⟩ := lib.lowlevelOutput_cases pkt pktsize portno rv
  · rw [heq]
  · rw [heq]
    exact List.length_set

/-- Only the creating calls make stacks, one each. -/
theorem length_step {a : Action} (hs : lib.step a = some lib') :
    lib'.created.length ≤ lib.created.length + if a.isCreate then 1 else 0 := by
  cases a with
  | createIPStack ifname new =>
    cases hs
    exact length_create
  | createIPStackWith ifname ipaddr ipmask gateway new =>
    cases hs
    exact length_create
  | openWithLowLevel i plowlevel in4 ifp =>
    obtain ⟨-, hs⟩ := Option.ite_none_right_eq_some.mp hs
    obtain ⟨s, hi, rfl⟩ := Option.map_eq_some_iff.mp hs
    exact Nat.le_of_eq List.length_set
  | destroyIPStack pstack =>
    cases pstack with
    | none =>
      cases hs
      exact Nat.le_refl _
    | some i =>
      obtain ⟨-, ⟨⟩⟩ := Option.ite_none_right_eq_some.mp hs
      exact Nat.le_of_eq (congrArg List.length (created_destroyIPStack (some i)))
  | lowlevelOutput pkt pktsize portno rv =>
    cases hs
    exact Nat.le_of_eq (length_lowlevelOutput pkt pktsize portno rv)

/-- **A run** with fewer creating calls than the counter has values. -/
theorem Numbered.exec {as : List Action} (h : lib.Numbered)
    (hlt : lib.created.length + as.countP Action.isCreate < 4294967296)
    (hs : Transition.exec CFSIPStackLib.step lib as = some lib') :
    lib'.Numbered ∧ lib'.created.length < 4294967296 := by
  induction as generalizing lib with
  | nil =>
    obtain rfl : lib = lib' := Option.some.inj hs
    exact ⟨h, hlt⟩
  | cons a as ih =>
    obtain ⟨lib₁, ha, has⟩ := Option.bind_eq_some_iff.mp hs
    have hlen := length_step ha
    rw [List.countP_cons] at hlt
    exact ih (h.step (by omega) ha) (by omega) has

end steps

/-- The order of creation is one in which the map may be visited. -/
def Numbered.order {lib : CFSIPStackLib} (h : lib.Numbered) : Order lib.iflist where
  entries :=
    ((List.range lib.created.length).filter fun i => lib.Live i).map fun i => (BitVec.ofNat 32 i, i)
  mem_iff k i := by
    rw [h.index k i, ids_eq_some_iff, List.mem_map]
    constructor
    · rintro ⟨j, hj, ⟨⟩⟩
      exact ⟨of_decide_eq_true (List.mem_filter.mp hj).2, rfl⟩
    · rintro ⟨hi, rfl⟩
      exact ⟨i, List.mem_filter.mpr ⟨List.mem_range.mpr hi.1, decide_eq_true hi⟩, rfl⟩

/-- From the numbering, all the registry is for. -/
theorem Numbered.exact {lib : CFSIPStackLib} (h : lib.Numbered)
    (hlt : lib.created.length < 4294967296) : lib.Exact where
  stored k i := h.stored
  distinct i j k hi hj := by
    obtain ⟨hi, hik⟩ := h.portid?_eq_some_iff.mp hi
    obtain ⟨hj, hjk⟩ := h.portid?_eq_some_iff.mp hj
    exact ofNat_inj (Nat.lt_trans hi hlt) (Nat.lt_trans hj hlt) (hik.trans hjk.symm)
  removes i hi k j := by
    -- what is left is an index of the other ids
    have hrest := h.index.remove (ids_eq_some_iff.mpr ⟨hi, rfl⟩) k j
    rw [h.destroyIPStack_eq hi]
    refine hrest.trans ?_
    by_cases hj : j = i
    · subst hj
      rw [Function.update_self]
      exact iff_of_false nofun fun hj => hj.2 rfl
    · rw [Function.update_of_ne hj, and_iff_left hj, h.index k j]
  found order name i hi := by
    obtain ⟨⟨k, j⟩, hfind, rfl⟩ := Option.map_eq_some_iff.mp hi
    have hmem := (order.mem_iff k j).mp (List.mem_of_find?_eq_some hfind)
    have hname := List.find?_some hfind
    exact ⟨(h.stored.mp hmem).1, beq_iff_eq.mp hname⟩
  notFound order name hnone i hi hname := by
    have hfind := Option.map_eq_none_iff.mp hnone
    have hport := h.portid?_eq_some_iff.mpr ⟨hi.1, rfl⟩
    have hmem := (order.mem_iff _ i).mpr (h.stored.mpr ⟨hi, hport⟩)
    exact List.find?_eq_none.mp hfind _ hmem (beq_iff_eq.mpr hname)
  reaches pkt pktsize portno rv hsize i s hi hs hport := by
    have hid : lib.portid? i = some portno := by rw [portid?, hs, ← hport, Option.map_some]
    exact reaches_of_stored (h.stored.mpr ⟨hi, hid⟩) hs hsize pkt rv
  fails pkt pktsize portno rv hno := by
    have hnone : lib.iflist portno = none := by
      refine Option.eq_none_iff_forall_ne_some.mpr fun i hi => ?_
      obtain ⟨hlive, hport⟩ := h.stored.mp hi
      exact hno i hlive hport
    exact lowlevelOutput_of_none hnone pkt pktsize rv

/-- **The registry.** After every sequence of calls with fewer than `2 ^ 32` creations: the map has
exactly the live stacks under their own ids, no two stacks ever created share an id, and
destruction, lookup by name and output act on the stack they are meant for. -/
theorem exact_of_exec {lib : CFSIPStackLib} (as : List Action)
    (hlt : as.countP Action.isCreate < 4294967296) (hs : exec step init as = some lib) :
    lib.Exact := by
  obtain ⟨h, hlen⟩ := numbered_init.exec (by rw [Nat.add_comm]; exact hlt) hs
  exact h.exact hlen

/-- Three stacks, of which the first is destroyed; there was no memory for another. -/
def twoLive : List Action :=
  [.createIPStack "eth0" true, .createIPStackWith "eth1" "10.0.0.1" "255.0.0.0" "10.0.0.254" true,
    .createIPStack "eth2" false, .destroyIPStack (some 0), .createIPStack "eth0" true,
    .openWithLowLevel 1 (some 7) (fun _ => 0) 1]

/-- The second stack called `eth0` has the id 2 and is found, and a packet for the id 1 goes to the
low level of `eth1`. -/
theorem exact_of_exec_twoLive : ∃ lib, exec step init twoLive = some lib ∧ lib.Exact ∧
    lib.iflist 2 = some 2 ∧ lib.iflist 0 = none ∧
    (∃ order, lib.getIPStack order "eth0" = some 2) ∧
    (lib.lowlevelOutput (some [1]) 1 1 fun _ => .ok).2 = (.ok, [⟨7, [1], 1, 1⟩]) := by
  have hfew : init.created.length + twoLive.countP Action.isCreate < 4294967296 := by decide
  have hrun : exec step init twoLive = some _ := rfl
  have hnumbered := (numbered_init.exec hfew hrun).1
  exact ⟨_, hrun, exact_of_exec twoLive (by decide) hrun, rfl, rfl, ⟨hnumbered.order, rfl⟩, rfl⟩

end CFSIPStackLib

end VosStack.IPStackLib
