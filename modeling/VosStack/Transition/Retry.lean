import Mathlib.Tactic.SplitIfs
import VosStack.Transition.Run

/-!
# Updates by compare and exchange

An update of a shared word is tried until it succeeds or is not wanted any more:

    old = load(p); ret = false;
    while (!ret && again(old)) ret = fcmpset(p, &old, update(old));

The exchange is one step. It installs the new value if the word is the expected one, or fails,
possibly without cause, and loads the word. Between the steps of the loop the other threads do
with the word whatever they like (`Action.interfere`).

`Loop.effect_of_reachable` is the reason such a loop is linearizable. The accesses of a loop that is
over are quiet but for the last, which makes the update on a word that wants it or finds a word that
does not. `Loop.attempts_le_one` bounds the attempts of a loop that is left alone.
-/

namespace VosStack.Transition.Retry

variable {χ : Type*}

/-- The condition and the update of a loop. -/
structure Loop (χ : Type*) where
  again : χ → Bool
  update : χ → χ

/-- Where the loop is. -/
inductive Pos (χ : Type*)
  | start
  /-- about to try, with what was last read -/
  | trying (old : χ)
  /-- over, with the last result of the exchange -/
  | done (ret : Bool)
  deriving DecidableEq, Repr

/-- The word, the loop, and what the loop has done. -/
structure State (χ : Type*) where
  word : χ
  pos : Pos χ
  /-- the word before and after each access of the loop -/
  accesses : List (χ × χ)
  /-- the exchanges tried -/
  attempts : ℕ
  deriving DecidableEq, Repr

inductive Action (χ : Type*)
  /-- other threads change the word -/
  | interfere (x : χ)
  | load
  /-- the exchange, which may fail without cause -/
  | attempt (spurious : Bool)
  deriving DecidableEq, Repr

/-- Before the load. -/
def State.start (word : χ) : State χ := ⟨word, .start, [], 0⟩

namespace Loop

/-- The test at the head of the loop. -/
def test (l : Loop χ) (ret : Bool) (old : χ) : Pos χ :=
  if !ret && l.again old then .trying old else .done ret

/-- The access that ends the loop: an update of a word that wants it, or a look at one that does
not. -/
def Ends (l : Loop χ) (ret : Bool) (e : χ × χ) : Prop :=
  if ret then l.again e.1 = true ∧ e.2 = l.update e.1 else l.again e.1 = false ∧ e.2 = e.1

/-- What the loop has done at each of its positions. -/
def Effect (l : Loop χ) (s : State χ) : Prop :=
  match s.pos with
  | .start => s.accesses = []
  | .trying old => l.again old = true ∧ ∀ e ∈ s.accesses, e.1 = e.2
  | .done ret => ∃ quiet e, s.accesses = quiet ++ [e] ∧ (∀ x ∈ quiet, x.1 = x.2) ∧ l.Ends ret e

/-- Nobody interferes while the loop tries, and the exchange does not fail without cause. -/
def Alone (s : State χ) : Action χ → Prop
  | .interfere _ => ∀ old, s.pos ≠ .trying old
  | .load => True
  | .attempt spurious => spurious = false

/-- The attempts so far, while the loop is left alone. -/
def Few (s : State χ) : Prop :=
  match s.pos with
  | .start => s.attempts = 0
  | .trying old => s.attempts = 0 ∧ old = s.word
  | .done _ => s.attempts ≤ 1

variable {l : Loop χ}

/-- After an access that left the word alone, the loop tries again or is over. -/
theorem effect_test {word : χ} {quiet : List (χ × χ)} (hquiet : ∀ x ∈ quiet, x.1 = x.2)
    (attempts : ℕ) :
    l.Effect ⟨word, l.test false word, quiet ++ [(word, word)], attempts⟩ := by
  rw [test]
  cases hagain : l.again word with
  | true => exact ⟨hagain, (forall_mem_snoc_iff hquiet).mpr rfl⟩
  | false => exact ⟨quiet, (word, word), rfl, hquiet, hagain, rfl⟩

theorem few_test {word : χ} {accesses : List (χ × χ)} :
    Few ⟨word, l.test false word, accesses, 0⟩ := by
  rw [test]
  cases l.again word with
  | true => exact ⟨rfl, rfl⟩
  | false => exact Nat.zero_le 1

end Loop

variable [DecidableEq χ]

/-- The exchange: its result, the word after it, and what is expected next. -/
def fcmpset (word expected desired : χ) (spurious : Bool) : Bool × χ × χ :=
  if word = expected ∧ ¬ spurious then (true, desired, expected) else (false, word, word)

namespace Loop

def step (l : Loop χ) (s : State χ) : Action χ → Option (State χ)
  | .interfere x => some { s with word := x }
  | .load =>
    match s.pos with
    | .start =>
      some { s with
        pos := l.test false s.word
        accesses := s.accesses ++ [(s.word, s.word)] }
    | _ => none
  | .attempt spurious =>
    match s.pos with
    | .trying old =>
      let r := fcmpset s.word old (l.update old) spurious
      some
        { word := r.2.1
          pos := l.test r.1 r.2.2
          accesses := s.accesses ++ [(s.word, r.2.1)]
          attempts := s.attempts + 1 }
    | _ => none

variable {l : Loop χ}

/-! ### Linearizability -/

theorem Effect.step {s s' : State χ} {a : Action χ} (h : l.Effect s) (hs : l.step s a = some s') :
    l.Effect s' := by
  obtain ⟨word, pos, accesses, attempts⟩ := s
  cases a with
  | interfere x =>
    cases hs
    exact h
  | load =>
    cases pos with
    | start =>
      cases hs
      have hnil : accesses = [] := h
      subst hnil
      exact effect_test (List.forall_mem_nil _) attempts
    | trying | done => cases hs
  | attempt spurious =>
    cases pos with
    | trying old =>
      cases hs
      obtain ⟨hagain, hquiet⟩ : l.again old = true ∧ ∀ e ∈ accesses, e.1 = e.2 := h
      rw [fcmpset]
      split_ifs with hsame
      · have hword : word = old := hsame.1
        subst hword
        exact ⟨accesses, (word, l.update word), rfl, hquiet, hagain, rfl⟩
      · exact effect_test hquiet (attempts + 1)
    | start | done => cases hs

/-- **Linearizability**, however the other threads interfere and however often the exchange
fails. -/
theorem effect_of_reachable {word : χ} {s : State χ} (h : Reachable l.step (.start word) s) :
    l.Effect s :=
  h.induct (I := l.Effect) rfl fun _ _ _ hs _ hstep => hs.step hstep

/-! ### Left alone -/

theorem Few.step {s s' : State χ} {a : Action χ} (h : Few s) (ha : Alone s a)
    (hs : l.step s a = some s') : Few s' := by
  obtain ⟨word, pos, accesses, attempts⟩ := s
  cases a with
  | interfere x =>
    cases hs
    cases pos with
    | start | done => exact h
    | trying old => exact absurd rfl (ha old)
  | load =>
    cases pos with
    | start =>
      cases hs
      have hzero : attempts = 0 := h
      subst hzero
      exact few_test
    | trying | done => cases hs
  | attempt spurious =>
    cases pos with
    | trying old =>
      cases hs
      obtain ⟨hzero, rfl⟩ : attempts = 0 ∧ old = word := h
      have hspurious : spurious = false := ha
      subst hzero hspurious
      rw [fcmpset, if_pos ⟨rfl, Bool.false_ne_true⟩]
      exact Nat.le_refl 1
    | start | done => cases hs

/-- A loop that is left alone tries at most once. -/
theorem attempts_le_one {word : χ} {s : State χ} (h : Reach l.step Alone (.start word) s) :
    s.attempts ≤ 1 := by
  have hfew : Few s := h.induct (I := Few) rfl fun _ _ _ hs ha hstep => hs.step ha hstep
  obtain ⟨w, pos, accesses, attempts⟩ := s
  cases pos with
  | start => exact Nat.le_trans (Nat.le_of_eq hfew) (Nat.zero_le 1)
  | trying old => exact Nat.le_trans (Nat.le_of_eq hfew.1) (Nat.zero_le 1)
  | done ret => exact hfew

/-- And it is over: a load and one exchange are enough. -/
theorem exists_done (l : Loop χ) (word : χ) :
    ∃ s ret, Reach l.step Alone (.start word) s ∧ s.pos = .done ret := by
  have hload : l.step (.start word) .load =
      some ⟨word, l.test false word, [(word, word)], 0⟩ := rfl
  have hreach : Reach l.step Alone (.start word) ⟨word, l.test false word, [(word, word)], 0⟩ :=
    .tail (a := .load) .refl trivial hload
  cases hagain : l.again word with
  | false =>
    refine ⟨_, false, hreach, ?_⟩
    rw [test, hagain]
    rfl
  | true =>
    have htest : l.test false word = .trying word := by
      rw [test, hagain]
      rfl
    rw [htest] at hreach
    refine ⟨_, true, hreach.tail (a := .attempt false) rfl rfl, ?_⟩
    rw [fcmpset, if_pos ⟨rfl, Bool.false_ne_true⟩]
    rfl

end Loop

end VosStack.Transition.Retry
