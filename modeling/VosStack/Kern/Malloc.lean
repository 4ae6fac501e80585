import VosStack.Memory.Arena
import VosStack.Transition.Run

/-!
# The kernel allocator on the host's memory

`malloc(9)` of the stack goes through three layers: the kernel functions (`malloc`, `free`,
`zfree`, `realloc`, `reallocf`), the hooks of the context (`context_malloc` and so on) and the
functions of the port, which use `new[]` and `delete[]` of the host. A failing `new[]` is a `NULL`.

The port resizes by releasing the block **before** it asks for the new one, and copies nothing.
`realloc` does therefore what it has to do only if the host has memory and the new block happens to
hold the bytes of the old one; otherwise the old content is lost, and `reallocf`, which releases
the block once more when it gets `NULL`, releases it twice. `zfree` clears nothing.
The theorem at the end says exactly which sequences of calls keep the contract.

An address is a number, `NULL` is `none`. What a fresh block holds is up to the host.
-/

namespace VosStack.Kern

open Transition
open Memory (Arena Block)

/-- The host's memory. -/
abbrev Heap := Arena ℕ

/-- What `new char[sz]` returns when it does not fail: an address, and the bytes that happen to be
there. -/
structure Fresh where
  addr : ℕ
  bytes : ℕ → BitVec 8

/-- The first `sz` bytes. -/
def Fresh.content (f : Fresh) (sz : ℕ) : Block := (List.range sz).map f.bytes

/-! ### The port -/

/-- `port_malloc`. The host does not give out an address twice: such an answer is not enabled. -/
def portMalloc (h : Heap) (sz : ℕ) : Option Fresh → Option (Heap × Option ℕ)
  | none => some (h, none)
  | some f =>
    if (h.block f.addr).isSome then none
    else some (h.alloc f.addr (f.content sz), some f.addr)

/-- `port_free`. -/
def portFree (h : Heap) : Option ℕ → Heap
  | none => h
  | some p => h.release p

/-- `port_realloc`: the same `delete[]` as in `port_free`, then `port_malloc`. -/
def portRealloc (h : Heap) (pointer : Option ℕ) (size : ℕ) (new : Option Fresh) :
    Option (Heap × Option ℕ) :=
  portMalloc (portFree h pointer) size new

/-! ### The context -/

/-- The memory hooks of `global_hooks`. -/
structure Hooks where
  allocate : Option (Heap → ℕ → Option Fresh → Option (Heap × Option ℕ))
  deallocate : Option (Heap → Option ℕ → Heap)
  reallocate : Option (Heap → Option ℕ → ℕ → Option Fresh → Option (Heap × Option ℕ))

/-- The hooks that the port installs. -/
def portHooks : Hooks := ⟨some portMalloc, some portFree, some portRealloc⟩

/-- `memset(p, 0, size)`, and `bzero(p, size)`, of a pointer that is not `NULL`. -/
def zero (h : Heap) (size : ℕ) : Option ℕ → Heap
  | none => h
  | some p => h.modify p fun b => List.replicate size 0#8 ++ b.drop size

section context

variable (hooks : Hooks)

/-- `context_malloc`. -/
def contextMalloc (h : Heap) (size : ℕ) (new : Option Fresh) : Option (Heap × Option ℕ) :=
  match hooks.allocate with
  | none => some (h, none)
  | some allocate => (allocate h size new).map fun r => (zero r.1 size r.2, r.2)

/-- `context_free`. -/
def contextFree (h : Heap) (p : Option ℕ) : Heap :=
  match hooks.deallocate with
  | none => h
  | some deallocate => deallocate h p

/-- `context_realloc`. -/
def contextRealloc (h : Heap) (p : Option ℕ) (size : ℕ) (new : Option Fresh) :
    Option (Heap × Option ℕ) :=
  match hooks.reallocate with
  | none => some (h, none)
  | some reallocate => reallocate h p size new

/-! ### The kernel -/

/-- `M_WAITOK`. -/
def mWaitok : BitVec 32 := 0x0002

/-- `M_ZERO`. -/
def mZero : BitVec 32 := 0x0100

/-- `malloc`. The loop takes the host's answers one by one; it is not over as long as it waits and
there was only `NULL`. -/
def malloc (h : Heap) (size : ℕ) (flags : BitVec 32) :
    List (Option Fresh) → Option (Heap × Option ℕ)
  | [] => none
  | new :: news =>
    match contextMalloc hooks h size new with
    | none => none
    | some (h', alloc) =>
      if alloc.isSome || flags &&& mWaitok == 0 then
        some (if flags &&& mZero != 0 then zero h' size alloc else h', alloc)
      else malloc h' size flags news

/-- `free`. -/
def free (h : Heap) (addr : Option ℕ) : Heap :=
  match addr with
  | none => h
  | some p => contextFree hooks h (some p)

/-- `zfree`. -/
def zfree (h : Heap) (addr : Option ℕ) : Heap := contextFree hooks h addr

/-- `realloc`. -/
def realloc (h : Heap) (addr : Option ℕ) (size : ℕ) (new : Option Fresh) :
    Option (Heap × Option ℕ) :=
  contextRealloc hooks h addr size new

/-- `reallocf`. -/
def reallocf (h : Heap) (addr : Option ℕ) (size : ℕ) (new : Option Fresh) :
    Option (Heap × Option ℕ) :=
  (realloc hooks h addr size new).map fun r =>
    match r.2 with
    | none => (free hooks r.1 addr, none)
    | some mem => (r.1, some mem)

end context

/-! ### What the functions do to the memory -/

/-- From now on the block at `p` counts, or does not; `NULL` is no block. -/
def mark (owned : ℕ → Bool) (p : Option ℕ) (v : Bool) (a : ℕ) : Bool :=
  if p = some a then v else owned a

theorem mark_none {owned : ℕ → Bool} {v : Bool} : mark owned none v = owned := by
  funext a
  exact if_neg nofun

/-- The addresses with a block. -/
def allocated (h : Heap) (a : ℕ) : Bool := (h.block a).isSome

/-- A request that returned `p` did nothing but allocate its block. -/
structure Allocates (h h' : Heap) (p : Option ℕ) : Prop where
  twice : h'.twice = h.twice
  allocated : allocated h' = mark (allocated h) p true

section effects

variable {h h' : Heap} {p : Option ℕ} {size : ℕ}

theorem Allocates.refl : Allocates h h none := ⟨rfl, mark_none.symm⟩

theorem allocated_zero {q : Option ℕ} : allocated (zero h size q) = allocated h := by
  funext a
  cases q with
  | none => rfl
  | some q => exact Arena.isSome_block_modify

theorem Allocates.zero (hh : Allocates h h' p) (size : ℕ) : Allocates h (zero h' size p) p := by
  refine ⟨?_, allocated_zero.trans hh.allocated⟩
  cases p with
  | none => exact hh.twice
  | some p => exact hh.twice

theorem portMalloc_allocates {new : Option Fresh} (hr : portMalloc h size new = some (h', p)) :
    Allocates h h' p := by
  cases new with
  | none =>
    cases hr
    exact .refl
  | some f =>
    rw [portMalloc, Option.ite_none_left_eq_some] at hr
    cases hr.2
    refine ⟨rfl, ?_⟩
    funext a
    simp only [allocated, mark, Arena.isSome_block_alloc, Option.some.injEq, eq_comm]

theorem contextMalloc_allocates {new : Option Fresh}
    (hr : contextMalloc portHooks h size new = some (h', p)) : Allocates h h' p := by
  obtain ⟨⟨h₁, q⟩, hp, he⟩ := Option.map_eq_some_iff.mp hr
  cases he
  exact (portMalloc_allocates hp).zero size

/-- However often the host failed before. -/
theorem malloc_allocates {flags : BitVec 32} (news : List (Option Fresh))
    (hr : malloc portHooks h size flags news = some (h', p)) : Allocates h h' p := by
  induction news generalizing h with
  | nil => cases hr
  | cons new news ih =>
    rw [malloc] at hr
    split at hr
    · cases hr
    next h₁ alloc hc =>
    have hh : Allocates h h₁ alloc := contextMalloc_allocates hc
    split_ifs at hr with hdone hz
    · cases hr
      exact hh.zero size
    · cases hr
      exact hh
    · -- a `NULL` left the memory as it was
      have hnull : alloc = none := by
        cases alloc with
        | none => rfl
        | some a => exact absurd rfl hdone
      subst hnull
      have hrest : Allocates h₁ h' p := ih hr
      exact ⟨hrest.twice.trans hh.twice, by rw [hrest.allocated, hh.allocated, mark_none]⟩

theorem allocated_portFree : allocated (portFree h p) = mark (allocated h) p false := by
  cases p with
  | none => exact mark_none.symm
  | some p =>
    funext a
    simp only [portFree, allocated, mark, Arena.isSome_block_release, Option.some.injEq, eq_comm]

/-- Afterwards the pointer points to no block. -/
theorem bind_block_portFree : p.bind (portFree h p).block = none := by
  cases p with
  | none => rfl
  | some p => exact Arena.block_release_self

theorem twice_portFree (hp : p.all (allocated h)) : (portFree h p).twice = h.twice := by
  cases p with
  | none => rfl
  | some p =>
    obtain ⟨b, hb⟩ := Option.isSome_iff_exists.mp hp
    rw [portFree, Arena.release_of_some hb]

/-- What is released is the content of the block. -/
theorem released_portFree : (portFree h p).released = h.released ++ (p.bind h.block).toList := by
  cases p with
  | none => exact (List.append_nil _).symm
  | some p =>
    rw [portFree, Option.bind_some]
    cases hb : h.block p with
    | none =>
      rw [Arena.release_of_none hb]
      exact (List.append_nil _).symm
    | some b => rw [Arena.release_of_some hb, Option.toList_some]

/-- What a call of `zfree` adds to what was released. -/
theorem drop_released_zfree :
    (zfree portHooks h p).released.drop h.released.length = (p.bind h.block).toList := by
  have hfree : zfree portHooks h p = portFree h p := rfl
  rw [hfree, released_portFree, List.drop_left]

theorem free_portHooks : free portHooks h p = portFree h p := by
  cases p with
  | none => rfl
  | some p => rfl

/-- The port resizes by a release and a request. -/
theorem realloc_portHooks {new : Option Fresh} :
    realloc portHooks h p size new = portMalloc (portFree h p) size new := rfl

end effects

/-! ### Sequences of calls -/

/-- What a call of `realloc` found and left: the block of its argument, the size asked for, the
block it returned, and what is at its argument afterwards. -/
structure Resize where
  old : Option Block
  size : ℕ
  result : Option Block
  left : Option Block

/-- What `malloc(9)` promises for a call of `realloc`: the block returned begins with the bytes of
the old one, as many as both have; on `NULL` the old block is as it was. -/
def Resize.Kept (r : Resize) : Prop :=
  match r.result with
  | some b => (r.old.getD []).take r.size <+: b
  | none => r.left = r.old

/-- The memory and its client, who knows by the contract which blocks are its own. -/
structure World where
  heap : Heap
  /-- the blocks the client owns -/
  owned : ℕ → Bool
  /-- the calls of `realloc`, also those that `reallocf` makes -/
  resizes : List Resize
  /-- what was in the blocks that `zfree` released -/
  wiped : List Block

/-- A call, or a write of the client to its own memory. -/
inductive Action
  | malloc (size : ℕ) (flags : BitVec 32) (news : List (Option Fresh))
  | write (p i : ℕ) (x : BitVec 8)
  | free (p : Option ℕ)
  | zfree (p : Option ℕ)
  | realloc (p : Option ℕ) (size : ℕ) (new : Option Fresh)
  | reallocf (p : Option ℕ) (size : ℕ) (new : Option Fresh)

namespace World

/-- Nothing is allocated. -/
def init : World := ⟨Arena.empty, fun _ => false, [], []⟩

/-- The client may pass `p`. -/
def owns (w : World) (p : Option ℕ) : Bool := p.all w.owned

/-- What the call `realloc(p, size)` finds and leaves. -/
def resize (w : World) (p : Option ℕ) (size : ℕ) (new : Option Fresh) : Option Resize :=
  (Kern.realloc portHooks w.heap p size new).map fun r =>
    ⟨p.bind w.heap.block, size, r.2.bind r.1.block, p.bind r.1.block⟩

/-- One call, with the hooks of the port. -/
def step (w : World) : Action → Option World
  | .malloc size flags news =>
    (Kern.malloc portHooks w.heap size flags news).map fun r =>
      { w with heap := r.1, owned := mark w.owned r.2 true }
  | .write p i x =>
    if w.owned p then some { w with heap := w.heap.modify p fun b => b.set i x } else none
  | .free p =>
    if w.owns p then
      some { w with heap := Kern.free portHooks w.heap p, owned := mark w.owned p false }
    else none
  | .zfree p =>
    if w.owns p then
      let h := Kern.zfree portHooks w.heap p
      some { w with
        heap := h, owned := mark w.owned p false,
        wiped := w.wiped ++ h.released.drop w.heap.released.length }
    else none
  | .realloc p size new =>
    if w.owns p then
      (w.resize p size new).bind fun entry =>
      (Kern.realloc portHooks w.heap p size new).map fun r =>
        -- on NULL the client keeps its block
        { w with
          heap := r.1,
          owned := if r.2 = none then w.owned else mark (mark w.owned p false) r.2 true,
          resizes := w.resizes ++ [entry] }
    else none
  | .reallocf p size new =>
    if w.owns p then
      (w.resize p size new).bind fun entry =>
      (Kern.reallocf portHooks w.heap p size new).map fun r =>
        { w with
          heap := r.1,
          owned := mark (mark w.owned p false) r.2 true,
          resizes := w.resizes ++ [entry] }
    else none

/-- **The contract of `malloc(9)`.** -/
structure Contract (w : World) : Prop where
  /-- `realloc` keeps the content, and on failure the block -/
  kept : ∀ r ∈ w.resizes, r.Kept
  /-- no block is released twice -/
  once : w.heap.twice = []
  /-- `zfree` leaves nothing of the content -/
  zeroed : ∀ b ∈ w.wiped, ∀ x ∈ b, x = 0#8

/-- The host's answer makes up for the copy that is not made: there is memory, and it holds the
bytes of the old block. -/
def Agrees (w : World) (p : Option ℕ) (size : ℕ) (new : Option Fresh) : Prop :=
  ∀ old ∈ p.bind w.heap.block, ∃ f ∈ new, old.take size <+: f.content size

/-- What a call needs to keep the contract. -/
def Safe (w : World) : Action → Prop
  | .zfree p => ∀ b ∈ p.bind w.heap.block, ∀ x ∈ b, x = 0#8
  | .realloc p size new | .reallocf p size new => w.Agrees p size new
  | .malloc .. | .write .. | .free _ => True

/-- The contract holds, and the client's view of its blocks is right. -/
structure Sound (w : World) : Prop where
  contract : w.Contract
  owned : w.owned = allocated w.heap

theorem sound_init : init.Sound := ⟨⟨nofun, rfl, nofun⟩, rfl⟩

section safe

variable {w w' : World} {p : Option ℕ} {size : ℕ} {new : Option Fresh}

theorem Sound.all_allocated (hw : w.Sound) (hp : w.owns p) : p.all (allocated w.heap) := by
  rw [owns, hw.owned] at hp
  exact hp

/-- `NULL` apart, what the client owns has a block. -/
theorem Sound.bind_block_eq_none_iff (hw : w.Sound) (hp : w.owns p) :
    p.bind w.heap.block = none ↔ p = none := by
  cases p with
  | none => exact iff_of_true rfl rfl
  | some a =>
    obtain ⟨b, hb⟩ := Option.isSome_iff_exists.mp (hw.all_allocated hp)
    rw [Option.bind_some, hb]
    exact iff_of_false nofun nofun

/-- **`realloc` and its promise.** Since nothing is copied and the old block is gone, the promise is
kept exactly when the host's answer makes up for it. -/
theorem kept_iff_agrees {entry : Resize} (hr : w.resize p size new = some entry) :
    entry.Kept ↔ w.Agrees p size new := by
  obtain ⟨r, hcall, rfl⟩ := Option.map_eq_some_iff.mp hr
  rw [realloc_portHooks] at hcall
  cases new with
  | none =>
    -- the block was released before the request failed, so there must have been none
    cases hcall
    rw [Resize.Kept, Option.bind_none, bind_block_portFree, Agrees]
    cases p.bind w.heap.block with
    | none => exact iff_of_true rfl nofun
    | some old => exact iff_of_false nofun fun h => nomatch h old rfl
  | some f =>
    -- the block returned holds what the host had there
    rw [portMalloc, Option.ite_none_left_eq_some] at hcall
    cases hcall.2
    simp only [Resize.Kept, Option.bind_some, Arena.block_alloc_self, Agrees, Option.mem_def,
      Option.some.injEq, exists_eq_left']
    cases p.bind w.heap.block with
    | none => exact iff_of_true (List.take_nil.symm ▸ List.nil_prefix) nofun
    | some old => simp only [Option.getD_some, Option.some.injEq, forall_eq']

/-- Where no memory makes up for the copy, there was no block. -/
theorem Sound.eq_none_of_agrees (hw : w.Sound) (hp : w.owns p) (h : w.Agrees p size none) :
    p = none := by
  rw [← hw.bind_block_eq_none_iff hp]
  exact Option.eq_none_iff_forall_not_mem.mpr fun old hold => nomatch h old hold

/-- Where the answer makes up for the copy, there is nothing for `reallocf` to release. -/
theorem Sound.reallocf_of_agrees (hw : w.Sound) (hp : w.owns p) (h : w.Agrees p size new) :
    Kern.reallocf portHooks w.heap p size new = Kern.realloc portHooks w.heap p size new := by
  rw [Kern.reallocf, realloc_portHooks]
  cases new with
  | none =>
    obtain rfl : p = none := hw.eq_none_of_agrees hp h
    rfl
  | some f =>
    rw [portMalloc]
    split_ifs
    · rfl
    · rfl

theorem Sound.allocated_realloc (hw : w.Sound) {r : Heap × Option ℕ}
    (hr : Kern.realloc portHooks w.heap p size new = some r) :
    allocated r.1 = mark (mark w.owned p false) r.2 true := by
  rw [(portMalloc_allocates hr).allocated, allocated_portFree, hw.owned]

theorem Sound.twice_realloc (hw : w.Sound) (hp : w.owns p) {r : Heap × Option ℕ}
    (hr : Kern.realloc portHooks w.heap p size new = some r) : r.1.twice = [] := by
  rw [(portMalloc_allocates hr).twice, twice_portFree (hw.all_allocated hp), hw.contract.once]

/-- A call that returns `NULL` leaves the blocks alone if it is safe. -/
theorem Sound.allocated_realloc_of_agrees (hw : w.Sound) (hp : w.owns p)
    (h : w.Agrees p size new) {r : Heap × Option ℕ}
    (hr : Kern.realloc portHooks w.heap p size new = some r) :
    (if r.2 = none then w.owned else mark (mark w.owned p false) r.2 true) = allocated r.1 := by
  split_ifs with hnull
  · have hnone : p = none := by
      cases new with
      | none => exact hw.eq_none_of_agrees hp h
      | some f =>
        rw [realloc_portHooks, portMalloc, Option.ite_none_left_eq_some] at hr
        cases hr.2
        cases hnull
    rw [hw.allocated_realloc hr, hnull, hnone, mark_none, mark_none]
  · exact (hw.allocated_realloc hr).symm

/-- **A safe call** keeps the contract and the client's view. -/
theorem Sound.step {a : Action} (hw : w.Sound) (ha : w.Safe a) (hs : w.step a = some w') :
    w'.Sound := by
  cases a with
  | malloc size flags news =>
    obtain ⟨r, hr, rfl⟩ := Option.map_eq_some_iff.mp hs
    have hm := malloc_allocates news hr
    exact ⟨⟨hw.contract.kept, hm.twice.trans hw.contract.once, hw.contract.zeroed⟩,
      hw.owned ▸ hm.allocated.symm⟩
  | write p i x =>
    obtain ⟨hp, ⟨⟩⟩ := Option.ite_none_right_eq_some.mp hs
    refine ⟨⟨hw.contract.kept, hw.contract.once, hw.contract.zeroed⟩, ?_⟩
    funext a
    exact (congrFun hw.owned a).trans Arena.isSome_block_modify.symm
  | free p =>
    obtain ⟨hp, ⟨⟩⟩ := Option.ite_none_right_eq_some.mp hs
    have htwice := twice_portFree (hw.all_allocated hp)
    refine ⟨⟨hw.contract.kept, ?_, hw.contract.zeroed⟩, ?_⟩
    · rw [free_portHooks, htwice, hw.contract.once]
    · rw [free_portHooks, allocated_portFree, hw.owned]
  | zfree p =>
    obtain ⟨hp, ⟨⟩⟩ := Option.ite_none_right_eq_some.mp hs
    refine ⟨⟨hw.contract.kept, ?_, ?_⟩, ?_⟩
    · exact (twice_portFree (hw.all_allocated hp)).trans hw.contract.once
    · rw [drop_released_zfree, List.forall_mem_append]
      exact ⟨hw.contract.zeroed, fun b hb => ha b (Option.mem_toList.mp hb)⟩
    · exact (congrArg (mark · p false) hw.owned).trans allocated_portFree.symm
  | realloc p size new =>
    obtain ⟨hp, hs⟩ := Option.ite_none_right_eq_some.mp hs
    obtain ⟨entry, hentry, hs⟩ := Option.bind_eq_some_iff.mp hs
    obtain ⟨r, hr, rfl⟩ := Option.map_eq_some_iff.mp hs
    refine ⟨⟨?_, hw.twice_realloc hp hr, hw.contract.zeroed⟩, ?_⟩
    · exact (forall_mem_snoc_iff hw.contract.kept).mpr ((kept_iff_agrees hentry).mpr ha)
    · exact hw.allocated_realloc_of_agrees hp ha hr
  | reallocf p size new =>
    obtain ⟨hp, hs⟩ := Option.ite_none_right_eq_some.mp hs
    obtain ⟨entry, hentry, hs⟩ := Option.bind_eq_some_iff.mp hs
    obtain ⟨r, hr, rfl⟩ := Option.map_eq_some_iff.mp hs
    rw [hw.reallocf_of_agrees hp ha] at hr
    refine ⟨⟨?_, hw.twice_realloc hp hr, hw.contract.zeroed⟩, (hw.allocated_realloc hr).symm⟩
    exact (forall_mem_snoc_iff hw.contract.kept).mpr ((kept_iff_agrees hentry).mpr ha)

/-- Both calls that resize leave an entry for the call of `realloc`. -/
theorem resizes_of_step
    (hs : w.step (.realloc p size new) = some w' ∨ w.step (.reallocf p size new) = some w') :
    ∃ entry, w.resize p size new = some entry ∧ w'.resizes = w.resizes ++ [entry] := by
  rcases hs with hs | hs
  all_goals
    obtain ⟨-, hs⟩ := Option.ite_none_right_eq_some.mp hs
    obtain ⟨entry, hentry, hs⟩ := Option.bind_eq_some_iff.mp hs
    obtain ⟨r, -, rfl⟩ := Option.map_eq_some_iff.mp hs
    exact ⟨entry, hentry, rfl⟩

theorem Sound.agrees_of_contract (hw : w.Sound) (hc : w'.Contract)
    (hs : w.step (.realloc p size new) = some w' ∨ w.step (.reallocf p size new) = some w') :
    w.Agrees p size new := by
  obtain ⟨entry, hentry, hlog⟩ := resizes_of_step hs
  have hkept := hc.kept
  rw [hlog, forall_mem_snoc_iff hw.contract.kept] at hkept
  exact (kept_iff_agrees hentry).mp hkept

/-- **Only a safe call** keeps the contract. -/
theorem Sound.safe_of_contract {a : Action} (hw : w.Sound) (hs : w.step a = some w')
    (hc : w'.Contract) : w.Safe a := by
  cases a with
  | malloc | write | free => trivial
  | zfree p =>
    obtain ⟨hp, ⟨⟩⟩ := Option.ite_none_right_eq_some.mp hs
    intro b hb
    refine hc.zeroed b ?_
    rw [drop_released_zfree]
    exact List.mem_append_right _ (Option.mem_toList.mpr hb)
  | realloc p size new => exact hw.agrees_of_contract hc (.inl hs)
  | reallocf p size new => exact hw.agrees_of_contract hc (.inr hs)

end safe

/-- **The allocator along a run.** Whatever is called with whatever sizes, whichever requests the
host cannot serve and whatever is in the memory it gives out: the contract of `malloc(9)` holds in
every state exactly when each call that is made is safe. -/
theorem always_contract_iff (as : List Action) :
    Always step Contract init as ↔
      Admitted step (fun w a => w.step a ≠ none → w.Safe a) init as := by
  refine always_iff_admitted_enabled (fun _ h => h.contract) ?_ ?_ as sound_init
  · intro w a w' h ha hs
    exact h.step ha hs
  · intro w a w' h hs hc
    exact h.safe_of_contract hs hc

/-- A block of two bytes is to be resized when the host has no memory: the block is gone, and
`reallocf` releases it once more. A block is to be cleared and released: its first byte stays. -/
theorem reallocf_releases_twice :
    (∃ w, exec step init
        [.malloc 2 mWaitok [none, some ⟨16, fun _ => 1#8⟩], .reallocf (some 16) 4 none] = some w ∧
      w.heap.twice = [16] ∧ w.resizes.map Resize.left = [none] ∧ ¬ w.Contract) ∧
    ∃ w, exec step init
        [.malloc 2 mWaitok [some ⟨16, fun _ => 1#8⟩], .write 16 0 7#8, .zfree (some 16)] = some w ∧
      w.wiped = [[7#8, 0#8]] ∧ ¬ w.Contract := by
  refine ⟨⟨_, rfl, rfl, rfl, fun h => ?_⟩, ⟨_, rfl, rfl, fun h => ?_⟩⟩
  · exact absurd h.once (List.cons_ne_nil 16 [])
  · exact absurd (h.zeroed _ List.mem_cons_self 7#8 List.mem_cons_self) (by decide)

end World

end VosStack.Kern
