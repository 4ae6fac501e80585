import Mathlib.Data.List.Basic

/-!
# The run of zeros that `::` stands for

`inet_ntop6` looks for the longest run of zero words in one pass: it keeps the best run that has
ended and the run that it is in. `bestRun` is the longest run, the first one of that length, if it
has two words at least.
-/

namespace VosStack.Inet

/-- A run of words: `struct { int base, len; }`. -/
structure Run where
  base : ℕ
  len : ℕ
  deriving DecidableEq, Repr

/-- The variables `best` and `cur`; `none` stands for the base -1. -/
structure RunScan where
  best : Option Run
  cur : Option Run
  deriving DecidableEq, Repr

/-- `if (best.base == -1 || cur.len > best.len) best = cur;` -/
def better (best : Option Run) (cur : Run) : Option Run :=
  match best with
  | none => some cur
  | some b => if b.len < cur.len then some cur else some b

/-- A turn of the loop. -/
def RunScan.step (s : RunScan) (i w : ℕ) : RunScan :=
  if w = 0 then
    match s.cur with
    | none => { s with cur := some ⟨i, 1⟩ }
    | some c => { s with cur := some { c with len := c.len + 1 } }
  else
    match s.cur with
    | none => s
    | some c => ⟨better s.best c, none⟩

/-- The loop over the words, from the index `i` on. -/
def RunScan.loop (s : RunScan) : ℕ → List ℕ → RunScan
  | _, [] => s
  | i, w :: ws => (s.step i w).loop (i + 1) ws

/-- What is done after the loop. -/
def RunScan.finish (s : RunScan) : Option Run :=
  match s.cur with
  | none => s.best
  | some c => better s.best c

/-- The run of zero words that `inet_ntop6` shortens. -/
def bestRun (words : List ℕ) : Option Run :=
  match (RunScan.loop ⟨none, none⟩ 0 words).finish with
  | none => none
  | some r => if r.len < 2 then none else some r

/-! ### What the run is -/

/-- A run of zeros in the words. -/
structure Run.Zeros (r : Run) (words : List ℕ) : Prop where
  len_pos : 0 < r.len
  zero : ∀ i, r.base ≤ i → i < r.base + r.len → words[i]? = some 0

/-- The first run is preferred to the second: it is longer, or as long and not behind it. -/
def Run.Beats (r r' : Run) : Prop := r'.len < r.len ∨ r'.len = r.len ∧ r.base ≤ r'.base

theorem Run.Beats.refl (r : Run) : r.Beats r := .inr ⟨rfl, Nat.le_refl _⟩

theorem Run.Beats.trans {r₁ r₂ r₃ : Run} (h : r₁.Beats r₂) (h' : r₂.Beats r₃) : r₁.Beats r₃ := by
  unfold Run.Beats at *
  omega

/-- The best run so far is preferred. -/
def Beaten (best : Option Run) (r : Run) : Prop := ∃ b, best = some b ∧ b.Beats r

theorem Beaten.better {best : Option Run} {r : Run} (h : Beaten best r) {c : Run} :
    Beaten (better best c) r := by
  obtain ⟨b, rfl, hb⟩ := h
  rw [Inet.better]
  split
  · next hlt => exact ⟨c, rfl, Run.Beats.trans (.inl hlt) hb⟩
  · exact ⟨b, rfl, hb⟩

/-- A run that comes after the best one so far is beaten afterwards, by itself or by that one. -/
theorem beaten_better {best : Option Run} {c : Run}
    (hbest : ∀ b, best = some b → b.base + b.len ≤ c.base) : Beaten (better best c) c := by
  cases best with
  | none => exact ⟨c, rfl, .refl c⟩
  | some b =>
    rw [better]
    split
    · exact ⟨c, rfl, .refl c⟩
    · next hlt =>
      have := hbest b rfl
      refine ⟨b, rfl, ?_⟩
      unfold Run.Beats
      omega

theorem better_eq_or (best : Option Run) (c : Run) :
    better best c = some c ∨ better best c = best := by
  cases best with
  | none => exact .inl rfl
  | some b =>
    rw [better]
    split
    · exact .inl rfl
    · exact .inr rfl

variable {words : List ℕ} {s : RunScan} {i : ℕ}

/-- Where the run begins that the loop is in. -/
def RunScan.start (s : RunScan) (i : ℕ) : ℕ :=
  match s.cur with
  | none => i
  | some c => c.base

/-- What the loop knows at the index `i`. -/
structure RunScan.Knows (s : RunScan) (words : List ℕ) (i : ℕ) : Prop where
  best : ∀ b, s.best = some b → b.Zeros words ∧ b.base + b.len ≤ s.start i
  cur : ∀ c, s.cur = some c → c.Zeros words ∧ c.base + c.len = i
  left : 0 < s.start i → words[s.start i - 1]? ≠ some 0
  beaten : ∀ r : Run, r.Zeros words → r.base + r.len ≤ s.start i → Beaten s.best r

/-- A run of zeros does not go across a word that is not zero. -/
theorem Run.Zeros.le_or_le {r : Run} (h : r.Zeros words) {j : ℕ}
    (hj : 0 < j → words[j - 1]? ≠ some 0) : r.base + r.len ≤ j ∨ j ≤ r.base := by
  by_contra hnot
  exact hj (by omega) (h.zero (j - 1) (by omega) (by omega))

theorem RunScan.Knows.start_le (h : s.Knows words i) : s.start i ≤ i := by
  rw [RunScan.start]
  split
  · exact Nat.le_refl i
  · next c hc =>
    have := (h.cur c hc).2
    omega

/-- The loop comes to a zero outside a run. -/
theorem RunScan.Knows.enter (h : s.Knows words i) (hcur : s.cur = none)
    (hw : words[i]? = some 0) : RunScan.Knows { s with cur := some ⟨i, 1⟩ } words (i + 1) := by
  have hstart : s.start i = i := by rw [RunScan.start, hcur]
  refine ⟨fun b hb => ?_, fun c hc => ?_, ?_, ?_⟩
  · exact ⟨(h.best b hb).1, hstart ▸ (h.best b hb).2⟩
  · obtain rfl := Option.some.inj hc
    refine ⟨⟨Nat.one_pos, fun j hj hlt => ?_⟩, rfl⟩
    simp only at hj hlt
    obtain rfl : j = i := by omega
    exact hw
  · exact hstart ▸ h.left
  · exact fun r hr hle => h.beaten r hr (hstart.symm ▸ hle)

/-- The loop comes to a zero inside a run. -/
theorem RunScan.Knows.extend (h : s.Knows words i) {c : Run} (hcur : s.cur = some c)
    (hw : words[i]? = some 0) :
    RunScan.Knows { s with cur := some { c with len := c.len + 1 } } words (i + 1) := by
  have hstart : s.start i = c.base := by rw [RunScan.start, hcur]
  obtain ⟨hzeros, hend⟩ := h.cur c hcur
  refine ⟨fun b hb => ?_, fun c' hc => ?_, ?_, ?_⟩
  · exact ⟨(h.best b hb).1, hstart ▸ (h.best b hb).2⟩
  · obtain rfl := Option.some.inj hc
    refine ⟨⟨Nat.succ_pos _, fun j hj hlt => ?_⟩, by simp only; omega⟩
    by_cases hji : j = i
    · rw [hji]
      exact hw
    · exact hzeros.zero j hj (by simp only at hlt; omega)
  · exact hstart ▸ h.left
  · exact fun r hr hle => h.beaten r hr (hstart.symm ▸ hle)

/-- Runs that end at `i` at the latest are beaten when the run that the loop is in has ended. -/
theorem RunScan.Knows.beaten_finish (h : s.Knows words i) {r : Run} (hr : r.Zeros words)
    (hle : r.base + r.len ≤ i) : Beaten s.finish r := by
  cases hcur : s.cur with
  | none =>
    rw [RunScan.finish, hcur]
    exact h.beaten r hr (by rw [RunScan.start, hcur]; exact hle)
  | some c =>
    have hstart : s.start i = c.base := by rw [RunScan.start, hcur]
    obtain ⟨hzeros, hend⟩ := h.cur c hcur
    rw [RunScan.finish, hcur]
    rcases hr.le_or_le h.left with hbefore | hinside
    · exact (h.beaten r hr hbefore).better
    · -- the run is a part of the one that the loop is in
      have hself : Beaten (better s.best c) c :=
        beaten_better fun b hb => hstart ▸ (h.best b hb).2
      obtain ⟨b, hb, hbeats⟩ := hself
      refine ⟨b, hb, hbeats.trans ?_⟩
      rw [hstart] at hinside
      unfold Run.Beats
      omega

theorem RunScan.Knows.zeros_finish (h : s.Knows words i) {b : Run} (hb : s.finish = some b) :
    b.Zeros words ∧ b.base + b.len ≤ i := by
  have hle := h.start_le
  cases hcur : s.cur with
  | none =>
    simp only [RunScan.finish, hcur] at hb
    exact ⟨(h.best b hb).1, Nat.le_trans (h.best b hb).2 hle⟩
  | some c =>
    simp only [RunScan.finish, hcur] at hb
    rcases better_eq_or s.best c with heq | heq
    · obtain rfl : c = b := Option.some.inj (heq.symm.trans hb)
      exact ⟨(h.cur c hcur).1, Nat.le_of_eq (h.cur c hcur).2⟩
    · rw [heq] at hb
      exact ⟨(h.best b hb).1, Nat.le_trans (h.best b hb).2 hle⟩

/-- The loop comes to a word that is not zero. -/
theorem RunScan.Knows.leave (h : s.Knows words i) (hw : words[i]? ≠ some 0) :
    RunScan.Knows ⟨s.finish, none⟩ words (i + 1) where
  best := fun b hb => ⟨(h.zeros_finish hb).1, Nat.le_succ_of_le (h.zeros_finish hb).2⟩
  cur := fun c hc => absurd hc (Option.some_ne_none c).symm
  left := fun _ => hw
  beaten := by
    intro r hr hle
    have hle : r.base + r.len ≤ i + 1 := hle
    have hpos := hr.len_pos
    refine h.beaten_finish hr ?_
    by_contra hnot
    exact hw (hr.zero i (by omega) (by omega))

theorem RunScan.Knows.step (h : s.Knows words i) {w : ℕ} (hw : words[i]? = some w) :
    (s.step i w).Knows words (i + 1) := by
  rw [RunScan.step]
  split
  · next hzero =>
    rw [hzero] at hw
    split
    · next hcur => exact h.enter hcur hw
    · next c hcur => exact h.extend hcur hw
  · next hne =>
    have hleave := h.leave fun heq => hne (Option.some.inj (hw.symm.trans heq))
    split
    · next hcur =>
      rw [RunScan.finish, hcur] at hleave
      obtain ⟨best, cur⟩ := s
      obtain rfl : cur = none := hcur
      exact hleave
    · next c hcur => rwa [RunScan.finish, hcur] at hleave

theorem RunScan.Knows.loop (h : s.Knows words i) :
    (s.loop i (words.drop i)).Knows words (max i words.length) := by
  induction hn : words.length - i generalizing s i with
  | zero =>
    have hle : words.length ≤ i := by omega
    rw [List.drop_eq_nil_of_le hle, Nat.max_eq_left hle]
    exact h
  | succ n ih =>
    have hlt : i < words.length := by omega
    have hmax : max i words.length = max (i + 1) words.length := by omega
    rw [List.drop_eq_getElem_cons hlt, RunScan.loop, hmax]
    exact ih (h.step (List.getElem?_eq_getElem hlt)) (by omega)

theorem knows_scan (words : List ℕ) :
    (RunScan.loop ⟨none, none⟩ 0 words).Knows words words.length := by
  have hinit : RunScan.Knows ⟨none, none⟩ words 0 := by
    refine ⟨fun b hb => absurd hb (Option.some_ne_none b).symm,
      fun c hc => absurd hc (Option.some_ne_none c).symm, fun hpos => absurd hpos (by decide),
      fun r hr hle => ?_⟩
    have hlen := hr.len_pos
    have : r.base + r.len ≤ 0 := hle
    omega
  simpa using hinit.loop

theorem Run.Zeros.end_le {r : Run} (h : r.Zeros words) : r.base + r.len ≤ words.length := by
  have hpos := h.len_pos
  have hlast := h.zero (r.base + r.len - 1) (by omega) (by omega)
  have hlt : r.base + r.len - 1 < words.length := by
    by_contra hnot
    rw [List.getElem?_eq_none (by omega)] at hlast
    exact Option.some_ne_none 0 hlast.symm
  omega

/-- The run that `inet_ntop6` shortens is a run of zeros. -/
theorem zeros_bestRun {r : Run} (h : bestRun words = some r) : r.Zeros words ∧ 2 ≤ r.len := by
  rw [bestRun] at h
  split at h
  · exact absurd h (Option.some_ne_none r).symm
  · next b hb =>
    split_ifs at h with hlt
    obtain rfl := Option.some.inj h
    exact ⟨((knows_scan words).zeros_finish hb).1, by omega⟩

theorem beaten_bestRun {r' : Run} (h' : r'.Zeros words) (hlen : 2 ≤ r'.len) :
    ∃ r, bestRun words = some r ∧ r.Zeros words ∧ r.Beats r' := by
  obtain ⟨b, hb, hbeats⟩ := (knows_scan words).beaten_finish h' h'.end_le
  have hzeros := ((knows_scan words).zeros_finish hb).1
  have hlt : ¬ b.len < 2 := by
    unfold Run.Beats at hbeats
    omega
  refine ⟨b, ?_, hzeros, hbeats⟩
  rw [bestRun, hb]
  exact if_neg hlt

theorem Run.Beats.antisymm {r r' : Run} (h : r.Beats r') (h' : r'.Beats r) : r = r' := by
  obtain ⟨base, len⟩ := r
  obtain ⟨base', len'⟩ := r'
  simp only [Run.Beats] at h h'
  obtain ⟨rfl, rfl⟩ : base = base' ∧ len = len' := by omega
  rfl

/-- **`::` stands for the longest run of zeros**, the first one of that length, and it stands for
none if no run has two words. -/
theorem bestRun_eq_some_iff {r : Run} :
    bestRun words = some r ↔
      r.Zeros words ∧ 2 ≤ r.len ∧ ∀ r' : Run, r'.Zeros words → r.Beats r' := by
  constructor
  · intro h
    obtain ⟨hzeros, htwo⟩ := zeros_bestRun h
    refine ⟨hzeros, htwo, fun r' h' => ?_⟩
    by_cases hlen : 2 ≤ r'.len
    · obtain ⟨b, hb, -, hbeats⟩ := beaten_bestRun h' hlen
      exact Option.some.inj (h.symm.trans hb) ▸ hbeats
    · exact .inl (by omega)
  · rintro ⟨hzeros, htwo, hbeats⟩
    obtain ⟨b, hb, hbzeros, hb'⟩ := beaten_bestRun hzeros htwo
    rw [hb, hb'.antisymm (hbeats b hbzeros)]

end VosStack.Inet
