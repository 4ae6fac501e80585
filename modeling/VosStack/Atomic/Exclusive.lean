import Mathlib.Algebra.BigOperators.Group.List.Basic
import Mathlib.Data.BitVec
import Mathlib.Data.Fintype.Basic
import VosStack.Atomic.Port
import VosStack.Transition.Linearization

/-!
# When the host's atomics are atomic

An operation is atomic if its load and its last access see the same word. Nothing in
`port_atomic.cpp` makes it so: another thread may store in between, and its update is lost.

`Exclusive` is the condition under which it holds: no thread loads the word while another is
between its load and its last access. The log is then explained by the sequential behaviour
of the operations (`legal_of_exclusive`). What follows is about such logs alone:

* the word is the initial value plus the sum of what was added (`word_eq_of_legal`);
* the results of `fetchadd` calls differ until they wrap around (`pairwise_ret_ne_of_legal`);
* a lock word holds the id of the thread that believes it owns it (`word_eq_of_believes`), so
  there is at most one such thread.
-/

namespace VosStack.Atomic

open Transition

variable {w : ℕ} {τ : Type*}

/-! ### Sequential behaviour -/

/-- A call from beginning to end with nothing in between. -/
def Atomically (x : BitVec w) (e : Entry w τ) (x' : BitVec w) : Prop :=
  ∃ spurious, e.op.finish x spurious x = (x', e.ret)

/-! ### Exclusive runs -/

/-- The operation builds its private copy from the shared word. -/
def Op.readsWord : Op w → Bool
  | .syncFetchaddPtr _ _ => false
  | _ => true

theorem Op.initial_of_readsWord {op : Op w} (h : op.readsWord = true) (x : BitVec w) :
    op.initial x = x := by
  cases op with
  | syncFetchaddPtr => exact absurd h nofun
  | _ => rfl

/-- The thread is between its load and its last access. -/
def Pos.isLoaded : Pos w → Bool
  | .loaded _ _ => true
  | _ => false

/-- `sync_atomic_fetchadd_ptr` is not called, and no thread loads the word while another is
between its load and its last access. -/
def Exclusive (s : World w τ) : Action w τ → Prop
  | .call _ op => op.readsWord = true
  | .load _ => ∀ t, (s.pos t).isLoaded = false
  | .finish _ _ => True

instance [Fintype τ] (s : World w τ) : ∀ a, Decidable (Exclusive s a)
  | .call _ op => inferInstanceAs (Decidable (op.readsWord = true))
  | .load _ => inferInstanceAs (Decidable (∀ t, (s.pos t).isLoaded = false))
  | .finish _ _ => inferInstanceAs (Decidable True)

/-- A thread that is to load will load the word, and a private copy is up to date. -/
def Pos.Current (word : BitVec w) : Pos w → Prop
  | .idle => True
  | .called op => op.readsWord = true
  | .loaded _ value => value = word

/-- Without a private copy the word does not matter. -/
theorem Pos.Current.of_not_isLoaded {p : Pos w} {x : BitVec w} (h : p.Current x)
    (hl : p.isLoaded = false) (y : BitVec w) : p.Current y := by
  cases p with
  | loaded op value => exact absurd hl nofun
  | _ => exact h

/-- Private copies are up to date, and there is at most one. -/
structure Undisturbed (s : World w τ) : Prop where
  current (t : τ) : (s.pos t).Current s.word
  alone {t t' : τ} (h : (s.pos t).isLoaded = true) (h' : (s.pos t').isLoaded = true) : t = t'

theorem Undisturbed.initial_eq {s : World w τ} (hu : Undisturbed s) {t : τ} {op : Op w}
    (hp : s.pos t = .called op) : op.initial s.word = s.word := by
  have hreads := hu.current t
  rw [hp] at hreads
  exact Op.initial_of_readsWord hreads s.word

section

variable [DecidableEq τ]

/-- A thread that leaves the loaded state, or does not enter it, leaves at most one there. -/
private theorem alone_update {s : World w τ} (hu : Undisturbed s) (t : τ) {p : Pos w}
    (hp : p.isLoaded = false) {u u' : τ} (h : (Function.update s.pos t p u).isLoaded = true)
    (h' : (Function.update s.pos t p u').isLoaded = true) : u = u' := by
  have hold : ∀ v, (Function.update s.pos t p v).isLoaded = true →
      (s.pos v).isLoaded = true := by
    intro v hv
    by_cases hvt : v = t
    · rw [hvt, Function.update_self, hp] at hv
      exact absurd hv nofun
    · rwa [Function.update_of_ne hvt] at hv
  exact hu.alone (hold u h) (hold u' h')

theorem Undisturbed.step {s s' : World w τ} {a : Action w τ} (hu : Undisturbed s)
    (hok : Exclusive s a) (h : Trans s a s') : Undisturbed s' := by
  cases h with
  | @call t op hp =>
    refine ⟨?_, alone_update hu t rfl⟩
    exact (Function.forall_update_iff s.pos fun _ p => p.Current s.word).mpr
      ⟨hok, fun u _ => hu.current u⟩
  | @load t op hp =>
    refine ⟨?_, ?_⟩
    · exact (Function.forall_update_iff s.pos fun _ p => p.Current s.word).mpr
        ⟨hu.initial_eq hp, fun u _ => hu.current u⟩
    · have hself : ∀ v, (Function.update s.pos t (.loaded op (op.initial s.word)) v).isLoaded
          = true → v = t := by
        intro v hv
        by_contra hvt
        rw [Function.update_of_ne hvt, hok v] at hv
        exact absurd hv nofun
      intro u u' h₁ h₂
      exact (hself u h₁).trans (hself u' h₂).symm
  | @loadLast t op ret hp hearly =>
    refine ⟨?_, alone_update hu t rfl⟩
    exact (Function.forall_update_iff s.pos fun _ p => p.Current s.word).mpr
      ⟨trivial, fun u _ => hu.current u⟩
  | @finish t spurious op value hp =>
    refine ⟨?_, alone_update hu t rfl⟩
    -- the word changes, but the other threads have no private copy
    refine (Function.forall_update_iff s.pos fun _ p => p.Current _).mpr
      ⟨trivial, fun u hut => (hu.current u).of_not_isLoaded ?_ _⟩
    by_contra hl
    exact hut (hu.alone (by simpa using hl) (by rw [hp]; rfl))

theorem undisturbed_of_exclusive {x₀ : BitVec w} {s : World w τ}
    (h : Reach step Exclusive (init x₀) s) : Undisturbed s :=
  h.induct ⟨fun _ => trivial, fun h => absurd h nofun⟩
    fun _ _ _ hu hok hs => hu.step hok (trans_of_step hs)

/-- In an exclusive run the last access of a call is its linearization point; for a call without
an access after its load this is the load. -/
theorem legal_of_exclusive {x₀ : BitVec w} {s : World w τ}
    (h : Reach step Exclusive (init x₀) s) : Legal Atomically x₀ s.log s.word := by
  refine Reach.legal World.log World.word h (fun _ => undisturbed_of_exclusive) rfl ?_
  intro s s' a hu _ hs
  cases trans_of_step hs with
  | call hp => exact .inl ⟨rfl, rfl⟩
  | load hp => exact .inl ⟨rfl, rfl⟩
  | @loadLast t op ret hp hearly =>
    rw [hu.initial_eq hp] at hearly
    exact .inr ⟨_, rfl, false, Op.finish_of_early hearly false s.word⟩
  | @finish t spurious op value hp =>
    refine .inr ⟨_, rfl, spurious, ?_⟩
    have hv : value = s.word := by
      have hc := hu.current t
      rwa [hp] at hc
    rw [hv]

end

/-! ### Sums -/

/-- What an arithmetic operation adds to the word. -/
def Op.delta : Op w → Option (BitVec w)
  | .add v | .fetchadd v => some v
  | .subtract v | .fetchsub v => some (-v)
  | _ => none

theorem Op.finish_of_delta {op : Op w} {v : BitVec w} (h : op.delta = some v) (x : BitVec w)
    (spurious : Bool) : (op.finish x spurious x).1 = x + v := by
  cases op with
  | add u | fetchadd u =>
    obtain rfl : u = v := by simpa [Op.delta] using h
    rfl
  | subtract u | fetchsub u =>
    obtain rfl : -u = v := by simpa [Op.delta] using h
    exact sub_eq_add_neg x u
  | _ => exact absurd h nofun

/-- **Nothing is lost.** If all calls are additions and subtractions, the word is the initial
value plus their sum. -/
theorem word_eq_of_legal {x₀ x : BitVec w} {log : List (Entry w τ)}
    (h : Legal Atomically x₀ log x) (harith : ∀ e ∈ log, e.op.delta.isSome = true) :
    x = x₀ + (log.filterMap fun e => e.op.delta).sum := by
  induction h with
  | nil => simp
  | @snoc log x x' e _ he ih =>
    obtain ⟨spurious, hfin⟩ := he
    obtain ⟨v, hv⟩ := Option.isSome_iff_exists.mp (harith e (by simp))
    have hx : x = x₀ + (log.filterMap fun e => e.op.delta).sum :=
      ih fun e' he' => harith e' (List.mem_append_left _ he')
    have hx' : x' = x + v := by rw [← Op.finish_of_delta hv x spurious, hfin]
    have hsum : ([e].filterMap fun e => e.op.delta).sum = v := by simp [hv]
    rw [hx', hx, List.filterMap_append, List.sum_append, hsum, add_assoc]

/-! ### Tickets -/

/-- The argument of a `fetchadd`. -/
def Op.amount : Op w → ℕ
  | .fetchadd v => v.toNat
  | _ => 0

/-- A `fetchadd` of something. -/
def Op.isTicket : Op w → Bool
  | .fetchadd v => v != 0
  | _ => false

/-- All calls are a `fetchadd` of something. -/
def Tickets (log : List (Entry w τ)) : Prop := ∀ e ∈ log, e.op.isTicket = true

instance (log : List (Entry w τ)) : Decidable (Tickets log) :=
  inferInstanceAs (Decidable (∀ e ∈ log, _))

/-- The total of the arguments of the `fetchadd` calls, not reduced. -/
def total (log : List (Entry w τ)) : ℕ := (log.map fun e => e.op.amount).sum

@[simp]
theorem total_append_singleton (log : List (Entry w τ)) (e : Entry w τ) :
    total (log ++ [e]) = total log + e.op.amount := by
  simp [total]

theorem Tickets.of_append {log : List (Entry w τ)} {e : Entry w τ}
    (h : Tickets (log ++ [e])) : Tickets log :=
  fun e' he' => h e' (List.mem_append_left _ he')

/-- A `fetchadd` of something moves the word up and returns where it was. -/
theorem Op.finish_of_isTicket {op : Op w} (h : op.isTicket = true) (x : BitVec w)
    (spurious : Bool) :
    op.finish x spurious x = (x + BitVec.ofNat w op.amount, .value x) ∧ 0 < op.amount := by
  cases op with
  | fetchadd v =>
    have hv : v ≠ 0 := by simpa [Op.isTicket] using h
    refine ⟨by simp [Op.finish, Op.amount], Nat.pos_of_ne_zero fun h0 => hv ?_⟩
    exact BitVec.eq_of_toNat_eq h0
  | _ => exact absurd h nofun

theorem Tickets.atomically {log : List (Entry w τ)} {e : Entry w τ}
    (h : Tickets (log ++ [e])) {x x' : BitVec w} (he : Atomically x e x') :
    x' = x + BitVec.ofNat w e.op.amount ∧ e.ret = .value x ∧ 0 < e.op.amount := by
  obtain ⟨spurious, hfin⟩ := he
  obtain ⟨hop, hpos⟩ := Op.finish_of_isTicket (h e (by simp)) x spurious
  obtain ⟨hx', hr⟩ := Prod.mk.inj (hfin.symm.trans hop)
  exact ⟨hx', hr, hpos⟩

/-- Where the word and the results are: the word is the total of the arguments above the initial
value, and each result is less than that. -/
theorem ret_of_legal {x₀ x : BitVec w} {log : List (Entry w τ)}
    (h : Legal Atomically x₀ log x) (ht : Tickets log) :
    x = x₀ + BitVec.ofNat w (total log) ∧
      ∀ e ∈ log, ∃ k < total log, e.ret = .value (x₀ + BitVec.ofNat w k) := by
  induction h with
  | nil => simp [total]
  | @snoc log x x' e _ he ih =>
    obtain ⟨hx, hret⟩ := ih ht.of_append
    obtain ⟨hx', hr, hpos⟩ := ht.atomically he
    rw [total_append_singleton]
    refine ⟨?_, ?_⟩
    · rw [hx', hx, BitVec.ofNat_add, add_assoc]
    · intro e' he'
      rcases List.mem_append.mp he' with hmem | hmem
      · obtain ⟨k, hk, hek⟩ := hret e' hmem
        exact ⟨k, by omega, hek⟩
      · obtain rfl : e' = e := by simpa using hmem
        exact ⟨total log, by omega, by rw [hr, hx]⟩

/-- **Tickets differ.** The results of `fetchadd` calls are pairwise different until the total
of their arguments wraps around. -/
theorem pairwise_ret_ne_of_legal {x₀ x : BitVec w} {log : List (Entry w τ)}
    (h : Legal Atomically x₀ log x) (ht : Tickets log) (hwrap : total log ≤ 2 ^ w) :
    log.Pairwise fun e e' => e.ret ≠ e'.ret := by
  induction h with
  | nil => exact .nil
  | @snoc log x x' e hl he ih =>
    obtain ⟨hx, hret⟩ := ret_of_legal hl ht.of_append
    obtain ⟨-, hr, hpos⟩ := ht.atomically he
    rw [total_append_singleton] at hwrap
    refine pairwise_snoc (ih ht.of_append (by omega)) ?_
    intro e' he' heq
    obtain ⟨k, hk, hek⟩ := hret e' he'
    rw [hek, hr, hx, Ret.value.injEq, add_right_inj] at heq
    have hmod : k % 2 ^ w = total log % 2 ^ w := by
      simpa using congrArg BitVec.toNat heq
    rw [Nat.mod_eq_of_lt (by omega), Nat.mod_eq_of_lt (by omega)] at hmod
    omega

/-! ### Locks -/

/-- A compare-and-set from `a` to `b`. -/
def Op.swings (a b : BitVec w) : Op w → Bool
  | .cmpset expect desired => expect == a && desired == b
  | .fcmpset _ expected desired => expected == a && desired == b
  | _ => false

/-- The result of a compare-and-set that succeeded. -/
def Ret.succeeded : Ret w → Bool
  | .flag success => success
  | .flagExpected success _ => success
  | _ => false

/-- A compare-and-set moves the word if and only if it reports success. -/
theorem Op.finish_of_swings {op : Op w} {a b : BitVec w} (h : op.swings a b = true)
    (x : BitVec w) (spurious : Bool) :
    (op.finish x spurious x).2.succeeded = true ∧ x = a ∧ (op.finish x spurious x).1 = b ∨
      (op.finish x spurious x).2.succeeded = false ∧ (op.finish x spurious x).1 = x := by
  cases op with
  | cmpset expect desired =>
    obtain ⟨rfl, rfl⟩ : expect = a ∧ desired = b := by simpa [Op.swings] using h
    by_cases hx : x = expect
    · simp [Op.finish, Ret.succeeded, hx]
    · simp [Op.finish, Ret.succeeded, hx]
  | fcmpset weak expected desired =>
    obtain ⟨rfl, rfl⟩ : expected = a ∧ desired = b := by simpa [Op.swings] using h
    by_cases hx : x = expected ∧ ¬ (weak = true ∧ spurious = true)
    · rw [Op.finish, if_pos hx]
      exact .inl ⟨rfl, hx.1, rfl⟩
    · rw [Op.finish, if_neg hx]
      exact .inr ⟨rfl, rfl⟩
  | _ => exact absurd h nofun

theorem Op.swings_eq_false {op : Op w} {a a' b : BitVec w} (h : op.swings a b = true)
    (hne : a ≠ a') (b' : BitVec w) : op.swings a' b' = false := by
  cases op with
  | cmpset expect desired | fcmpset _ expect desired =>
    obtain ⟨rfl, rfl⟩ : expect = a ∧ desired = b := by simpa [Op.swings] using h
    simp [Op.swings, hne]
  | _ => rfl

section lock

variable [DecidableEq τ] (free : BitVec w) (tid : τ → BitVec w)

/-- The call has taken the lock for its thread. -/
def Entry.takes (e : Entry w τ) : Bool := e.op.swings free (tid e.thread) && e.ret.succeeded

/-- The call has given the lock of its thread back. -/
def Entry.gives (e : Entry w τ) : Bool :=
  e.op == .storeRel free || e.op.swings (tid e.thread) free && e.ret.succeeded

/-- The thread `t` believes that it owns the lock: it has taken it and not given it back. -/
def believes (t : τ) (log : List (Entry w τ)) : Bool :=
  log.foldl (fun b e =>
    if e.thread = t then
      if e.takes free tid then true else if e.gives free tid then false else b
    else b) false

/-- The use of a lock word: a thread tries to take the lock, or gives it back if it believes
that it owns it. -/
def LockUse (before : List (Entry w τ)) (e : Entry w τ) : Prop :=
  e.op.swings free (tid e.thread) = true ∨
    believes free tid e.thread before = true ∧
      (e.op = .storeRel free ∨ e.op.swings (tid e.thread) free = true)

instance (before : List (Entry w τ)) (e : Entry w τ) : Decidable (LockUse free tid before e) :=
  inferInstanceAs (Decidable (_ ∨ _))

/-- All calls are uses of the word as a lock. -/
def Disciplined (log : List (Entry w τ)) : Prop :=
  ∀ (i : ℕ) (h : i < log.length), LockUse free tid (log.take i) log[i]

instance (log : List (Entry w τ)) : Decidable (Disciplined free tid log) :=
  inferInstanceAs (Decidable (∀ (i : ℕ) (h : i < log.length), LockUse free tid _ log[i]))

variable {free tid}

theorem believes_append_singleton (t : τ) (log : List (Entry w τ)) (e : Entry w τ) :
    believes free tid t (log ++ [e]) =
      if e.thread = t then
        if e.takes free tid then true
        else if e.gives free tid then false else believes free tid t log
      else believes free tid t log := by
  simp only [believes, List.foldl_append, List.foldl_cons, List.foldl_nil]

theorem Disciplined.of_append {log : List (Entry w τ)} {e : Entry w τ}
    (h : Disciplined free tid (log ++ [e])) :
    Disciplined free tid log ∧ LockUse free tid log e := by
  constructor
  · intro i hi
    have hu := h i (by simp; omega)
    rwa [List.take_append_of_le_length hi.le, List.getElem_append_left hi] at hu
  · have hu := h log.length (by simp)
    simpa using hu

/-- A call that does not take the lock leaves only owners that there were, and not the one
that has given it back. -/
theorem believes_of_not_takes {t : τ} {log : List (Entry w τ)} {e : Entry w τ}
    (ht : believes free tid t (log ++ [e]) = true) (hn : e.takes free tid = false) :
    believes free tid t log = true ∧ (e.gives free tid = true → e.thread ≠ t) := by
  rw [believes_append_singleton, hn] at ht
  by_cases het : e.thread = t
  · by_cases hg : e.gives free tid = true
    · simp [het, hg] at ht
    · exact ⟨by simpa [het, hg] using ht, fun h => absurd h hg⟩
  · exact ⟨by simpa [het] using ht, fun _ => het⟩

/-- **The owner's id is in the lock word.** -/
theorem word_eq_of_believes {x₀ x : BitVec w} {log : List (Entry w τ)}
    (h : Legal Atomically x₀ log x) (hinj : Function.Injective tid)
    (hfree : ∀ t, tid t ≠ free) (hd : Disciplined free tid log) {t : τ}
    (ht : believes free tid t log = true) : x = tid t := by
  induction h generalizing t with
  | nil => exact absurd ht nofun
  | @snoc log x x' e _ he ih =>
    obtain ⟨spurious, hfin⟩ := he
    obtain ⟨hd', huse⟩ := hd.of_append
    have hx' : (e.op.finish x spurious x).1 = x' := by rw [hfin]
    have hret : (e.op.finish x spurious x).2 = e.ret := by rw [hfin]
    -- giving back: the caller's id was in the word, so nobody else owns the lock
    have hgive (hb : believes free tid e.thread log = true) (hn : e.takes free tid = false)
        (hg : e.gives free tid = true) : x' = tid t := by
      obtain ⟨hold, hne⟩ := believes_of_not_takes ht hn
      exact absurd (hinj ((ih hd' hb).symm.trans (ih hd' hold))) (hne hg)
    rcases huse with hs | ⟨hb, hstore | hs⟩
    · rcases Op.finish_of_swings hs x spurious with ⟨-, hx, hto⟩ | ⟨hf, hto⟩
      · by_cases het : e.thread = t
        · rw [← hx', hto, het]
        · rw [believes_append_singleton, if_neg het] at ht
          exact absurd ((ih hd' ht).symm.trans hx) (hfree t)
      · have hn : e.takes free tid = false := by rw [Entry.takes, ← hret, hf, Bool.and_false]
        rw [← hx', hto]
        exact ih hd' (believes_of_not_takes ht hn).1
    · exact hgive hb (by simp [Entry.takes, hstore, Op.swings])
        (by simp [Entry.gives, hstore])
    · have hn : e.takes free tid = false := by
        rw [Entry.takes, Op.swings_eq_false hs (hfree e.thread), Bool.false_and]
      rcases Op.finish_of_swings hs x spurious with ⟨hsucc, -, -⟩ | ⟨-, hto⟩
      · exact hgive hb hn (by simp [Entry.gives, hs, ← hret, hsucc])
      · rw [← hx', hto]
        exact ih hd' (believes_of_not_takes ht hn).1

end lock

/-! ### Summary -/

/-- **The atomics are linearizable in exclusive runs.** The log of the calls that are done is
explained by the sequential behaviour of the operations. So the word is the initial value plus
the sum of what was added if all calls are additions and subtractions; the results of
`fetchadd` calls alone are pairwise different until they wrap around; and a word that is used
as a lock has at most one owner. -/
theorem linearizable_of_exclusive [DecidableEq τ] {x₀ : BitVec w} {s : World w τ}
    (h : Reach step Exclusive (init x₀) s) :
    Legal Atomically x₀ s.log s.word ∧
    ((∀ e ∈ s.log, e.op.delta.isSome = true) →
      s.word = x₀ + (s.log.filterMap fun e => e.op.delta).sum) ∧
    (Tickets s.log → total s.log ≤ 2 ^ w → s.log.Pairwise fun e e' => e.ret ≠ e'.ret) ∧
    ∀ (free : BitVec w) (tid : τ → BitVec w), Function.Injective tid →
      (∀ t, tid t ≠ free) → Disciplined free tid s.log →
        ∀ t t', believes free tid t s.log = true → believes free tid t' s.log = true →
          t = t' := by
  have hl := legal_of_exclusive h
  refine ⟨hl, word_eq_of_legal hl, pairwise_ret_ne_of_legal hl, ?_⟩
  intro free tid hinj hfree hd t t' ht ht'
  exact hinj ((word_eq_of_believes hl hinj hfree hd ht).symm.trans
    (word_eq_of_believes hl hinj hfree hd ht'))

/-- Two threads draw tickets from a counter that wraps around, and two threads compete for a
lock that the first gives back. -/
theorem linearizable_of_exclusive_two_threads :
    (∃ s : World 32 (Fin 2), Reach step Exclusive (init 0xFFFFFFFF) s ∧
      s.log = [⟨1, atomicFetchaddInt 1, .value 0xFFFFFFFF⟩, ⟨0, atomicFetchaddInt 2, .value 0⟩] ∧
      s.word = 0xFFFFFFFF + (1 + (2 + 0)) ∧
      s.log.Pairwise fun e e' => e.ret ≠ e'.ret) ∧
    ∃ s : World 64 (Fin 2), Reach step Exclusive (init 0) s ∧
      s.log = [⟨0, atomicCmpsetLong 0 16, .flag true⟩,
        ⟨1, atomicFcmpsetLong 0 17, .flagExpected false 16⟩,
        ⟨0, atomicStoreRelLong 0, .void⟩,
        ⟨1, atomicFcmpsetLong 0 17, .flagExpected true 0⟩] ∧
      ∀ t, believes 0 (fun t => BitVec.ofNat 64 (16 + t.val)) t s.log = true → t = 1 := by
  have hcount : Reach step Exclusive (init (0xFFFFFFFF : BitVec 32)) _ := reach_of_exec
    [.call (0 : Fin 2) (atomicFetchaddInt 2), .call 1 (atomicFetchaddInt 1), .load 1,
      .finish 1 false, .load 0, .finish 0 false] (by decide) rfl
  have hlock : Reach step Exclusive (init (0 : BitVec 64)) _ := reach_of_exec
    [.call (1 : Fin 2) (atomicFcmpsetLong 0 17), .call 0 (atomicCmpsetLong 0 16), .load 0,
      .finish 0 false, .load 1, .finish 1 false, .call 1 (atomicFcmpsetLong 0 17),
      .call 0 (atomicStoreRelLong 0), .load 0, .finish 0 false, .load 1, .finish 1 false]
    (by decide) rfl
  obtain ⟨-, hsum, htickets, -⟩ := linearizable_of_exclusive hcount
  obtain ⟨-, -, -, howner⟩ := linearizable_of_exclusive hlock
  refine ⟨⟨_, hcount, rfl, hsum (by decide), htickets (by decide) (by decide)⟩, _, hlock, rfl, ?_⟩
  intro t ht
  exact howner 0 _ (by decide) (by decide) (by decide) t 1 ht rfl

/-- **Overlapping calls are not atomic.** In each run two threads load the word before either
stores, and in the end no call is in progress.

* Of two additions of 1 to a word that is 0, one is lost.
* Two `fetchadd` calls return the same value.
* Two threads take one lock.

Moreover a single call of `sync_atomic_fetchadd_ptr` replaces the word by the address of the
call's parameter plus the argument. -/
theorem lost_update :
    (∃ s : World 32 (Fin 2), Reachable step (init 0) s ∧ (∀ t, s.pos t = .idle) ∧
      s.log = [⟨0, atomicAddInt 1, .void⟩, ⟨1, atomicAddInt 1, .void⟩] ∧ s.word = 1) ∧
    (∃ s : World 64 (Fin 2), Reachable step (init 0) s ∧ (∀ t, s.pos t = .idle) ∧
      s.log = [⟨0, atomicFetchaddLong 1, .value 0⟩, ⟨1, atomicFetchaddLong 1, .value 0⟩]) ∧
    (∃ s : World 64 (Fin 2), Reachable step (init 0) s ∧ (∀ t, s.pos t = .idle) ∧
      s.log = [⟨0, atomicCmpsetLong 0 16, .flag true⟩,
        ⟨1, atomicFcmpsetPointer 0 17, .flagExpected true 0⟩] ∧
      ∀ t, believes 0 (fun t => BitVec.ofNat 64 (16 + t.val)) t s.log = true) ∧
    ∃ s : World 64 (Fin 1), Reachable step (init 5) s ∧ (∀ t, s.pos t = .idle) ∧
      s.log = [⟨0, syncAtomicFetchaddPtr 0x7FFF0000 1, .value 0x7FFF0000⟩] ∧
      s.word = 0x7FFF0001 := by
  have hadd : Reachable step (init (0 : BitVec 32)) _ := reachable_of_exec
    [.call (0 : Fin 2) (atomicAddInt 1), .call 1 (atomicAddInt 1), .load 0, .load 1,
      .finish 0 false, .finish 1 false] rfl
  have hfetch : Reachable step (init (0 : BitVec 64)) _ := reachable_of_exec
    [.call (0 : Fin 2) (atomicFetchaddLong 1), .call 1 (atomicFetchaddLong 1), .load 0,
      .load 1, .finish 0 false, .finish 1 false] rfl
  have hlock : Reachable step (init (0 : BitVec 64)) _ := reachable_of_exec
    [.call (0 : Fin 2) (atomicCmpsetLong 0 16), .call 1 (atomicFcmpsetPointer 0 17), .load 0,
      .load 1, .finish 0 false, .finish 1 false] rfl
  have hptr : Reachable step (init (5 : BitVec 64)) _ := reachable_of_exec
    [.call (0 : Fin 1) (syncAtomicFetchaddPtr 0x7FFF0000 1), .load 0, .finish 0 false] rfl
  exact ⟨⟨_, hadd, by decide, rfl, rfl⟩, ⟨_, hfetch, by decide, rfl⟩,
    ⟨_, hlock, by decide, rfl, by decide⟩, _, hptr, by decide, rfl, rfl⟩

end VosStack.Atomic
