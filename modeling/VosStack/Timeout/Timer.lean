import VosStack.Timeout.Callout
import VosStack.Transition.Linearization
import Mathlib.Logic.Function.Basic

/-!
# One-shot timers

What the callout subsystem is for can be said without its lists, locks and executors: a callout
is a timer that is armed for a time, expires, and calls a function once, unless it is stopped
before. `TimerSpec` is this sequential specification, with the results of the interface
functions.

The log of a run of timers tells what they do (`recorded_of_legal`): a function that is going to
be called was armed for, its time has come, and there are no more calls than there were armings.
-/

namespace VosStack.Timeout

/-- A timer. -/
@[ext]
structure Timer (Call : Type*) where
  /-- the time and the function it is armed for -/
  armed : Option (ℕ × Call)
  /-- its time has come -/
  expired : Bool
  /-- the function that is going to be called -/
  due : Option Call
  /-- the function is going to be called, or has been and has not yet returned -/
  busy : Bool

/-- A timer that was never armed. -/
def Timer.off {Call : Type*} : Timer Call := ⟨none, false, none, false⟩

/-- The timer is not armed any more. -/
def Timer.disarm {Call : Type*} (τ : Timer Call) : Timer Call :=
  { τ with armed := none, expired := false }

/-- The function that is going to be called is not called if the timer has a lock. -/
def Timer.cancel {Call : Type*} (τ : Timer Call) (locked : Bool) : Timer Call :=
  { τ with due := if locked then none else τ.due }

/-- There is a call that can be cancelled. -/
def Timer.cancellable {Call : Type*} (τ : Timer Call) (locked : Bool) : Bool :=
  locked && τ.due.isSome

/-- The result of stopping a timer. -/
def Timer.stopResult {Call : Type*} (τ : Timer Call) (useLock executing drain : Bool) : ℤ :=
  if τ.busy then if τ.cancellable useLock && !drain || executing then 1 else 0
  else if τ.armed.isSome then 1 else -1

/-- A timer is stopped. If a call can be cancelled then nothing else is done. -/
def Timer.stop {Call : Type*} (τ : Timer Call) (useLock drain : Bool) : Timer Call :=
  if τ.busy && τ.cancellable useLock && !drain then τ.cancel true else τ.disarm

/-- What may happen to a timer. -/
inductive TimerStep {Cid Call : Type*} (locked : Bool) (τ : Timer Call) :
    Event Cid Call → Timer Call → Prop
  | reset {c : Cid} {time : ℕ} {call : Call} :
      TimerStep locked τ (.reset c time call (τ.cancellable locked || τ.armed.isSome) true)
        { τ.cancel locked with armed := some (time, call), expired := false }
  | refuse {c : Cid} {time : ℕ} {call : Call} (hbusy : τ.busy = true) :
      TimerStep locked τ (.reset c time call (τ.cancellable locked) false) (τ.cancel locked)
  | stop {c : Cid} {useLock executing drain : Bool} (huse : useLock = true → locked = true) :
      TimerStep locked τ
        (.stop c useLock executing drain (τ.stopResult useLock executing drain))
        (τ.stop useLock drain)
  | drain {c : Cid} (hbusy : τ.busy = false) :
      TimerStep locked τ (.drain c (if τ.armed.isSome then 1 else -1)) τ.disarm
  | expire {c : Cid} {time now : ℕ} {call : Call} (harmed : τ.armed = some (time, call))
      (hwait : τ.expired = false) (hdue : time ≤ now) :
      TimerStep locked τ (.expire c now) { τ with expired := true }
  | enter {c : Cid} {direct : Bool} {time : ℕ} {call : Call}
      (harmed : τ.armed = some (time, call)) (hexp : τ.expired = true) (hbusy : τ.busy = false) :
      TimerStep locked τ (.enter c direct) ⟨none, false, some call, true⟩
  | call {c : Cid} {direct : Bool} {call : Call} (hbusy : τ.busy = true)
      (hdue : τ.due = some call) :
      TimerStep locked τ (.call c direct call) { τ with due := none }
  | skip {c : Cid} {direct : Bool} (hbusy : τ.busy = true) (hdue : τ.due = none) :
      TimerStep locked τ (.skip c direct) τ
  | leave {c : Cid} {direct : Bool} (hbusy : τ.busy = true) (hdue : τ.due = none) :
      TimerStep locked τ (.leave c direct) { τ with busy := false }

theorem TimerStep.due_of_call {Cid Call : Type*} {locked : Bool} {τ τ' : Timer Call} {c : Cid}
    {d : Bool} {f : Call} (h : TimerStep locked τ (.call c d f) τ') : τ.due = some f := by
  cases h with
  | call _ hdue => exact hdue

/-- The callout of an event. -/
def Event.callout {Cid Call : Type*} : Event Cid Call → Cid
  | .reset c _ _ _ _ => c
  | .stop c _ _ _ _ => c
  | .drain c _ => c
  | .expire c _ => c
  | .enter c _ => c
  | .call c _ _ => c
  | .skip c _ => c
  | .leave c _ => c

/-- Any number of timers as one object: an event is a step of one of them. -/
def TimerSpec {Cid Call : Type*} (locked : Cid → Bool) (σ : Cid → Timer Call)
    (e : Event Cid Call) (σ' : Cid → Timer Call) : Prop :=
  TimerStep (locked e.callout) (σ e.callout) e (σ' e.callout) ∧ ∀ c ≠ e.callout, σ' c = σ c

theorem TimerSpec.of_update {Cid Call : Type*} [DecidableEq Cid] {locked : Cid → Bool}
    {σ : Cid → Timer Call} {c : Cid} {e : Event Cid Call} {τ : Timer Call}
    (hc : e.callout = c) (h : TimerStep (locked c) (σ c) e τ) :
    TimerSpec locked σ e (Function.update σ c τ) := by
  subst hc
  refine ⟨?_, fun c hne => Function.update_of_ne hne _ _⟩
  rwa [Function.update_self]

/-! ### What the specification says about calls -/

section calls

variable {Cid Call : Type*} [DecidableEq Cid] {locked : Cid → Bool}
variable {σ : Cid → Timer Call} {log : List (Event Cid Call)} {c : Cid}

/-- The event arms the callout. -/
def Event.isArm (c : Cid) : Event Cid Call → Bool
  | .reset c' _ _ _ armed => decide (c' = c) && armed
  | _ => false

/-- The timer was armed for this function and its time has come. -/
def Earned (log : List (Event Cid Call)) (c : Cid) (f : Call) : Prop :=
  ∃ time now cancelled, .reset c time f cancelled true ∈ log ∧ .expire c now ∈ log ∧ time ≤ now

/-- What the log tells about a timer. -/
structure Recorded (log : List (Event Cid Call)) (c : Cid) (τ : Timer Call) : Prop where
  armed : ∀ time f, τ.armed = some (time, f) → ∃ cancelled, .reset c time f cancelled true ∈ log
  expired : ∀ time f, τ.armed = some (time, f) → τ.expired = true →
    ∃ now, .expire c now ∈ log ∧ time ≤ now
  due : ∀ f, τ.due = some f → Earned log c f
  count : log.countP (Event.isCall c) + τ.due.toList.length + τ.armed.toList.length ≤
    log.countP (Event.isArm c)

omit [DecidableEq Cid] in
theorem Earned.mono {f : Call} (h : Earned log c f) (e : Event Cid Call) :
    Earned (log ++ [e]) c f := by
  obtain ⟨time, now, cancelled, hr, he, hle⟩ := h
  exact ⟨time, now, cancelled, List.mem_append_left _ hr, List.mem_append_left _ he, hle⟩

/-- A timer that does not know more than before. -/
theorem Recorded.mono {τ τ' : Timer Call} (h : Recorded log c τ) {e : Event Cid Call}
    (harmed : τ'.armed = none ∨ τ'.armed = τ.armed ∧ τ'.expired = τ.expired)
    (hdue : τ'.due = none ∨ τ'.due = τ.due) (hcall : Event.isCall c e = false) :
    Recorded (log ++ [e]) c τ' where
  armed := by
    intro time f hf
    rcases harmed with hnone | ⟨heq, -⟩
    · exact absurd (hnone.symm.trans hf) (Option.some_ne_none _).symm
    · obtain ⟨b, hb⟩ := h.armed time f (heq ▸ hf)
      exact ⟨b, List.mem_append_left _ hb⟩
  expired := by
    intro time f hf hexp
    rcases harmed with hnone | ⟨heq, hexp'⟩
    · exact absurd (hnone.symm.trans hf) (Option.some_ne_none _).symm
    · obtain ⟨now, hnow, hle⟩ := h.expired time f (heq ▸ hf) (hexp' ▸ hexp)
      exact ⟨now, List.mem_append_left _ hnow, hle⟩
  due := by
    intro f hf
    rcases hdue with hnone | heq
    · exact absurd (hnone.symm.trans hf) (Option.some_ne_none _).symm
    · exact (h.due f (heq ▸ hf)).mono e
  count := by
    have hc := h.count
    have ha : τ'.armed.toList.length ≤ τ.armed.toList.length := by
      rcases harmed with hnone | ⟨heq, -⟩
      · simp [hnone]
      · exact Nat.le_of_eq (by rw [heq])
    have hd : τ'.due.toList.length ≤ τ.due.toList.length := by
      rcases hdue with hnone | heq
      · simp [hnone]
      · exact Nat.le_of_eq (by rw [heq])
    simp only [List.countP_append, List.countP_singleton, hcall]
    simp only [Bool.false_eq_true, if_false]
    omega

/-- A timer that is armed. -/
theorem Recorded.arm {τ : Timer Call} (h : Recorded log c τ) {time : ℕ} {f : Call}
    {cancelled : Bool} {due : Option Call} (hdue : due = none ∨ due = τ.due) (busy : Bool) :
    Recorded (log ++ [.reset c time f cancelled true]) c ⟨some (time, f), false, due, busy⟩ where
  armed := by
    rintro time' f' hf
    obtain ⟨rfl, rfl⟩ := Prod.mk.inj (Option.some.inj hf)
    exact ⟨cancelled, List.mem_append_right _ (List.mem_singleton.mpr rfl)⟩
  expired := fun _ _ _ hexp => absurd hexp Bool.false_ne_true
  due := by
    intro g hg
    rcases hdue with hnone | heq
    · exact absurd (hnone.symm.trans hg) (Option.some_ne_none _).symm
    · exact (h.due g (heq ▸ hg)).mono _
  count := by
    have hc := h.count
    have hd : due.toList.length ≤ τ.due.toList.length := by
      rcases hdue with hnone | heq
      · simp [hnone]
      · exact Nat.le_of_eq (by rw [heq])
    simp only [List.countP_append, List.countP_singleton, Event.isCall, Event.isArm, decide_true,
      Bool.and_true, if_true, Option.toList_some, List.length_singleton, Bool.false_eq_true,
      if_false]
    omega

/-- The time of a timer has come. -/
theorem Recorded.expire {τ : Timer Call} (h : Recorded log c τ) {time now : ℕ} {f : Call}
    (harmed : τ.armed = some (time, f)) (hle : time ≤ now) :
    Recorded (log ++ [.expire c now]) c { τ with expired := true } where
  armed := by
    intro time' f' hf
    obtain ⟨b, hb⟩ := h.armed time' f' hf
    exact ⟨b, List.mem_append_left _ hb⟩
  expired := by
    intro time' f' hf _
    obtain ⟨rfl, rfl⟩ := Prod.mk.inj (Option.some.inj (harmed.symm.trans hf))
    exact ⟨now, List.mem_append_right _ (List.mem_singleton.mpr rfl), hle⟩
  due := fun g hg => (h.due g hg).mono _
  count := by
    have hc := h.count
    simpa [Event.isCall, Event.isArm] using hc

/-- A timer that has expired is going to call its function. -/
theorem Recorded.enter {τ : Timer Call} (h : Recorded log c τ) {time : ℕ} {f : Call}
    {direct : Bool} (harmed : τ.armed = some (time, f)) (hexp : τ.expired = true) :
    Recorded (log ++ [.enter c direct]) c ⟨none, false, some f, true⟩ where
  armed := fun _ _ hf => absurd hf (Option.some_ne_none _).symm
  expired := fun _ _ hf => absurd hf (Option.some_ne_none _).symm
  due := by
    intro g hg
    obtain rfl := Option.some.inj hg
    obtain ⟨b, hb⟩ := h.armed time f harmed
    obtain ⟨now, hnow, hle⟩ := h.expired time f harmed hexp
    have hearned : Earned log c f := ⟨time, now, b, hb, hnow, hle⟩
    exact hearned.mono _
  count := by
    have hc := h.count
    rw [harmed] at hc
    simp only [Option.toList_some, List.length_singleton] at hc
    simp only [List.countP_append, List.countP_singleton, Event.isCall, Event.isArm,
      Bool.false_eq_true, if_false, Option.toList_some, Option.toList_none, List.length_singleton,
      List.length_nil]
    omega

/-- A timer calls its function. -/
theorem Recorded.call {τ : Timer Call} (h : Recorded log c τ) {f : Call} {direct : Bool}
    (hdue : τ.due = some f) :
    Recorded (log ++ [.call c direct f]) c { τ with due := none } where
  armed := by
    intro time' f' hf
    obtain ⟨b, hb⟩ := h.armed time' f' hf
    exact ⟨b, List.mem_append_left _ hb⟩
  expired := by
    intro time' f' hf hexp
    obtain ⟨now, hnow, hle⟩ := h.expired time' f' hf hexp
    exact ⟨now, List.mem_append_left _ hnow, hle⟩
  due := fun _ hf => absurd hf (Option.some_ne_none _).symm
  count := by
    have hc := h.count
    rw [hdue] at hc
    simp only [Option.toList_some, List.length_singleton] at hc
    simp only [List.countP_append, List.countP_singleton, Event.isCall, Event.isArm, decide_true,
      if_true, Bool.false_eq_true, if_false, Option.toList_none, List.length_nil]
    omega

theorem Timer.due_cancel (τ : Timer Call) (locked : Bool) :
    (τ.cancel locked).due = none ∨ (τ.cancel locked).due = τ.due := by
  cases locked with
  | false => exact .inr rfl
  | true => exact .inl rfl

/-- The log tells about the timer after a step. -/
theorem Recorded.step {τ τ' : Timer Call} {e : Event Cid Call} (h : Recorded log c τ)
    (hc : e.callout = c) {locked : Bool} (hs : TimerStep locked τ e τ') :
    Recorded (log ++ [e]) c τ' := by
  cases hs with
  | @reset c' time f =>
    obtain rfl : c' = c := hc
    exact h.arm (τ.due_cancel locked) _
  | refuse => exact h.mono (.inr ⟨rfl, rfl⟩) (τ.due_cancel locked) rfl
  | stop =>
    rw [Timer.stop]
    split
    · exact h.mono (.inr ⟨rfl, rfl⟩) (τ.due_cancel true) rfl
    · exact h.mono (.inl rfl) (.inr rfl) rfl
  | drain => exact h.mono (.inl rfl) (.inr rfl) rfl
  | @expire c' time now f harmed hwait hle =>
    obtain rfl : c' = c := hc
    exact h.expire harmed hle
  | @enter c' direct time f harmed hexp hbusy =>
    obtain rfl : c' = c := hc
    exact h.enter harmed hexp
  | @call c' direct f hbusy hdue =>
    obtain rfl : c' = c := hc
    exact h.call hdue
  | skip => exact h.mono (.inr ⟨rfl, rfl⟩) (.inr rfl) rfl
  | leave => exact h.mono (.inr ⟨rfl, rfl⟩) (.inr rfl) rfl

/-- The log of a run of the timers tells about every timer. -/
theorem recorded_of_legal (h : Transition.Legal (TimerSpec locked) (fun _ => .off) log σ)
    (c : Cid) : Recorded log c (σ c) := by
  induction h with
  | nil =>
    exact ⟨fun _ _ hf => absurd hf (Option.some_ne_none _).symm,
      fun _ _ hf => absurd hf (Option.some_ne_none _).symm,
      fun _ hf => absurd hf (Option.some_ne_none _).symm, Nat.le_refl _⟩
  | @snoc log σ σ' e _ he ih =>
    by_cases hc : e.callout = c
    · exact ih.step hc (hc ▸ he.1)
    · rw [he.2 c (Ne.symm hc)]
      refine ih.mono (.inr ⟨rfl, rfl⟩) (.inr rfl) ?_
      cases e with
      | call c' => exact decide_eq_false hc
      | _ => rfl

end calls

end VosStack.Timeout
