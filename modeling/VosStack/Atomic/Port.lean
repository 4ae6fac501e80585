import Mathlib.Data.Nat.Notation
import Mathlib.Logic.Function.Basic
import VosStack.Transition.Run

/-!
# The host's atomic operations

Every operation of `port_atomic.cpp` has one shape. It builds a private `std::atomic` from a
load of the shared word, operates on the private copy, and stores the copy's value back into
the word. The kernel's wrappers in `compat/atomic.c` only pass their arguments on.

A call of a thread is thus three steps: the call itself, the load of `*p`, and the last
access of `*p` with the local work before it. The last access is the store. A failed `fcmpset`
has a second load in its place, which gives the new `*expected`. A read and a failed `cmpset` make
no access after their load (`Op.early`), which ends the call.

The operations are modelled at every width; the functions of the source fix it. Some members
of the family differ:

* `atomic_fcmpset_long` uses `compare_exchange_weak`, which may fail without cause.
* `sync_atomic_fetchadd_ptr` builds its copy from `(uint64_t)&p`, the address of its own
  parameter, and not from the word.
-/

namespace VosStack.Atomic

/-! ### Operations -/

/-- A call of an operation on the shared word, with its arguments. -/
inductive Op (w : ℕ)
  | set (v : BitVec w)
  | clear (v : BitVec w)
  | add (v : BitVec w)
  | subtract (v : BitVec w)
  | fetchadd (v : BitVec w)
  | fetchsub (v : BitVec w)
  | cmpset (expect desired : BitVec w)
  /-- `weak` for `compare_exchange_weak` -/
  | fcmpset (weak : Bool) (expected desired : BitVec w)
  | swap (v : BitVec w)
  | storeRel (v : BitVec w)
  | loadAcq
  /-- `addr` is the address of the parameter `p` -/
  | syncFetchaddPtr (addr v : BitVec w)
  deriving DecidableEq, Repr

/-- What a call gives its caller. -/
inductive Ret (w : ℕ)
  | void
  | value (x : BitVec w)
  | flag (success : Bool)
  /-- the result of `fcmpset`, and `*expected` after it -/
  | flagExpected (success : Bool) (expected : BitVec w)
  deriving DecidableEq, Repr

variable {w : ℕ}

/-- The value that the private copy is built from, when the shared word is `word`. -/
def Op.initial (word : BitVec w) : Op w → BitVec w
  | .syncFetchaddPtr addr _ => addr
  | _ => word

/-- The rest of an operation whose private copy holds `value`: the shared word after it, which
is `word` before it, and the result. `spurious` is the choice of a weak exchange to fail. -/
def Op.finish (value : BitVec w) (spurious : Bool) (word : BitVec w) : Op w → BitVec w × Ret w
  | .set v => (value ||| v, .void)
  | .clear v => (value &&& ~~~v, .void)
  | .add v => (value + v, .void)
  | .subtract v => (value - v, .void)
  | .fetchadd v => (value + v, .value value)
  | .fetchsub v => (value - v, .value value)
  | .cmpset expect desired =>
    if value = expect then (desired, .flag true) else (word, .flag false)
  | .fcmpset weak expected desired =>
    if value = expected ∧ ¬ (weak ∧ spurious) then (desired, .flagExpected true expected)
    else (word, .flagExpected false word)
  | .swap v => (v, .value value)
  | .storeRel v => (v, .void)
  | .loadAcq => (word, .value value)
  | .syncFetchaddPtr _ v => (value + v, .value value)

/-- The result of an operation that makes no access after its load. -/
def Op.early (value : BitVec w) : Op w → Option (Ret w)
  | .cmpset expect _ => if value = expect then none else some (.flag false)
  | .loadAcq => some (.value value)
  | _ => none

theorem Op.finish_of_early {op : Op w} {value : BitVec w} {ret : Ret w}
    (h : op.early value = some ret) (spurious : Bool) (word : BitVec w) :
    op.finish value spurious word = (word, ret) := by
  cases op with
  | cmpset expect desired =>
    rw [Op.early, Option.ite_none_left_eq_some] at h
    obtain ⟨hne, hret⟩ := h
    obtain rfl := Option.some.inj hret
    exact if_neg hne
  | loadAcq =>
    obtain rfl := Option.some.inj h
    rfl
  | _ => exact absurd h nofun

/-! ### The functions of the source -/

section members

def atomicSetInt (v : BitVec 32) : Op 32 := .set v
def atomicClearInt (v : BitVec 32) : Op 32 := .clear v
def atomicAddInt (v : BitVec 32) : Op 32 := .add v
def atomicSubtractInt (v : BitVec 32) : Op 32 := .subtract v
def atomicAddLong (v : BitVec 64) : Op 64 := .add v
def atomicSubtractLong (v : BitVec 64) : Op 64 := .subtract v
def atomicFetchsubInt (v : BitVec 32) : Op 32 := .fetchsub v
def atomicFetchsubLong (v : BitVec 64) : Op 64 := .fetchsub v
def atomicFetchaddInt (v : BitVec 32) : Op 32 := .fetchadd v
def atomicFetchaddLong (v : BitVec 64) : Op 64 := .fetchadd v
def atomicCmpsetChar (expect desired : BitVec 8) : Op 8 := .cmpset expect desired
def atomicCmpsetShort (expect desired : BitVec 16) : Op 16 := .cmpset expect desired
def atomicCmpsetInt (expect desired : BitVec 32) : Op 32 := .cmpset expect desired
def atomicCmpsetLong (expect desired : BitVec 64) : Op 64 := .cmpset expect desired
def atomicFcmpsetChar (expected desired : BitVec 8) : Op 8 := .fcmpset false expected desired
def atomicFcmpsetShort (expected desired : BitVec 16) : Op 16 := .fcmpset false expected desired
def atomicFcmpsetInt (expected desired : BitVec 32) : Op 32 := .fcmpset false expected desired
def atomicFcmpsetLong (old newvalue : BitVec 64) : Op 64 := .fcmpset true old newvalue
def atomicFcmpsetPointer (expected desired : BitVec 64) : Op 64 :=
  .fcmpset false expected desired
def atomicStoreRelInt (v : BitVec 32) : Op 32 := .storeRel v
def atomicStoreRelLong (v : BitVec 64) : Op 64 := .storeRel v
def atomicLoadAcqInt : Op 32 := .loadAcq
def atomicLoadAcqLong : Op 64 := .loadAcq
def atomicSwapInt (v : BitVec 32) : Op 32 := .swap v
def atomicSwapLong (v : BitVec 64) : Op 64 := .swap v
def syncAtomicFetchaddChar (v : BitVec 8) : Op 8 := .fetchadd v
def syncAtomicFetchaddInt (v : BitVec 32) : Op 32 := .fetchadd v
def syncAtomicFetchaddUint (v : BitVec 32) : Op 32 := .fetchadd v
def syncAtomicFetchaddLong (v : BitVec 64) : Op 64 := .fetchadd v
def syncAtomicFetchadd8 (v : BitVec 8) : Op 8 := .fetchadd v
def syncAtomicFetchadd16 (v : BitVec 16) : Op 16 := .fetchadd v
def syncAtomicFetchadd32Pfn (v : BitVec 32) : Op 32 := .fetchadd v
def syncAtomicFetchadd64Pfn (v : BitVec 64) : Op 64 := .fetchadd v
def syncAtomicFetchaddPtr (addr v : BitVec 64) : Op 64 := .syncFetchaddPtr addr v

end members

/-! ### Threads -/

/-- Where a thread is in a call. -/
inductive Pos (w : ℕ)
  | idle
  /-- the word is not yet loaded -/
  | called (op : Op w)
  /-- the private copy is built from `value` -/
  | loaded (op : Op w) (value : BitVec w)
  deriving DecidableEq, Repr

/-- A call that is done. -/
structure Entry (w : ℕ) (τ : Type*) where
  thread : τ
  op : Op w
  ret : Ret w
  deriving DecidableEq, Repr

/-- The shared word and the threads `τ`. -/
structure World (w : ℕ) (τ : Type*) where
  word : BitVec w
  pos : τ → Pos w
  /-- ghost: the calls that are done, in the order of their last access -/
  log : List (Entry w τ)

variable {τ : Type*} [DecidableEq τ]

/-- No call is in progress. -/
def init (x : BitVec w) : World w τ := ⟨x, fun _ => .idle, []⟩

inductive Action (w : ℕ) (τ : Type*)
  | call (t : τ) (op : Op w)
  | load (t : τ)
  | finish (t : τ) (spurious : Bool)

def step (s : World w τ) : Action w τ → Option (World w τ)
  | .call t op =>
    match s.pos t with
    | .idle => some { s with pos := Function.update s.pos t (.called op) }
    | _ => none
  | .load t =>
    match s.pos t with
    | .called op =>
      match op.early (op.initial s.word) with
      | none => some { s with pos := Function.update s.pos t (.loaded op (op.initial s.word)) }
      | some ret =>
        some { s with pos := Function.update s.pos t .idle, log := s.log ++ [⟨t, op, ret⟩] }
    | _ => none
  | .finish t spurious =>
    match s.pos t with
    | .loaded op value =>
      let (word, ret) := op.finish value spurious s.word
      some ⟨word, Function.update s.pos t .idle, s.log ++ [⟨t, op, ret⟩]⟩
    | _ => none

/-- What a step can do. -/
inductive Trans (s : World w τ) : Action w τ → World w τ → Prop
  | call {t : τ} {op : Op w} (h : s.pos t = .idle) :
      Trans s (.call t op) { s with pos := Function.update s.pos t (.called op) }
  | load {t : τ} {op : Op w} (h : s.pos t = .called op) :
      Trans s (.load t)
        { s with pos := Function.update s.pos t (.loaded op (op.initial s.word)) }
  | loadLast {t : τ} {op : Op w} {ret : Ret w} (h : s.pos t = .called op)
      (hearly : op.early (op.initial s.word) = some ret) :
      Trans s (.load t)
        { s with pos := Function.update s.pos t .idle, log := s.log ++ [⟨t, op, ret⟩] }
  | finish {t : τ} {spurious : Bool} {op : Op w} {value : BitVec w}
      (h : s.pos t = .loaded op value) :
      Trans s (.finish t spurious)
        ⟨(op.finish value spurious s.word).1, Function.update s.pos t .idle,
          s.log ++ [⟨t, op, (op.finish value spurious s.word).2⟩]⟩

theorem trans_of_step {s s' : World w τ} {a : Action w τ} (h : step s a = some s') :
    Trans s a s' := by
  cases a with
  | call t op =>
    simp only [step] at h
    split at h
    · next hp =>
      obtain rfl := Option.some.inj h
      exact .call hp
    · exact absurd h nofun
  | load t =>
    simp only [step] at h
    split at h
    · next hp =>
      split at h <;> obtain rfl := Option.some.inj h
      · exact .load hp
      · next hearly => exact .loadLast hp hearly
    · exact absurd h nofun
  | finish t spurious =>
    simp only [step] at h
    split at h
    · next hp =>
      obtain rfl := Option.some.inj h
      exact .finish hp
    · exact absurd h nofun

end VosStack.Atomic
