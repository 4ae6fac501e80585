import VosStack.Timeout.Upkeep

/-!
# The two executors

Callouts are called by `softclock` and, if they are direct, by the clock interrupt. Each has its
own `struct cc_exec`. `Exec.Fits` relates that record to the place where the executor is.

`callout_reset_sbt_on` looks for the callout at the executor that its *argument* names, and
`_callout_stop_safe` at the one that `CALLOUT_DIRECT` names, a flag that is never cleared and
that is read before `cc_lock` is taken. They find a callout that is being called only if these
agree: a callout must be armed as direct always or never, and not for the first time between the
reading of the flag and the section. `Action.Uniform` states this, and `Paired` is what follows
from it.
-/

namespace VosStack.Timeout

section stage

variable {Cid Call : Type*}

/-- The callout an executor is at. -/
def Stage.callout : Stage Cid Call → Option Cid
  | .entered c _ => some c
  | .holding c _ => some c
  | .committed c _ => some c
  | .running c _ => some c
  | .returned c => some c
  | _ => none

/-- The callout whose handler was called, or skipped. -/
def Stage.started : Stage Cid Call → Option Cid
  | .running c _ => some c
  | .returned c => some c
  | _ => none

/-- The callout whose lock the executor holds in order to call it. -/
def Stage.holder : Stage Cid Call → Option Cid
  | .holding c _ => some c
  | .committed c _ => some c
  | _ => none

/-- The handler that an executor is going to call unless it finds `cc_cancel` set. -/
def Stage.before : Stage Cid Call → Option (Cid × Call)
  | .entered c call => some (c, call)
  | .holding c call => some (c, call)
  | _ => none

/-- A thread may be waiting for the executor. -/
def Stage.awaited : Stage Cid Call → Bool
  | .idle => false
  | .waking => false
  | _ => true

theorem Stage.awaited_of_callout {x : Stage Cid Call} (h : x.callout ≠ none) :
    x.awaited = true := by
  cases x with
  | idle => exact absurd rfl h
  | waking => exact absurd rfl h
  | _ => rfl

theorem Stage.callout_of_before {x : Stage Cid Call} {c : Cid} {call : Call}
    (h : x.before = some (c, call)) : x.callout = some c := by
  cases x with
  | entered c' call' =>
    obtain ⟨rfl, rfl⟩ := Prod.mk.inj (Option.some.inj h)
    rfl
  | holding c' call' =>
    obtain ⟨rfl, rfl⟩ := Prod.mk.inj (Option.some.inj h)
    rfl
  | _ => exact absurd h (Option.some_ne_none _).symm

/-- Where an executor with a callout can be. -/
theorem Stage.cases_of_callout {x : Stage Cid Call} {c : Cid} (h : x.callout = some c) :
    (∃ call, x.before = some (c, call)) ∨ (∃ call, x = .committed c call) ∨
      x.started = some c := by
  cases x with
  | entered c' call =>
    obtain rfl : c' = c := Option.some.inj h
    exact .inl ⟨call, rfl⟩
  | holding c' call =>
    obtain rfl : c' = c := Option.some.inj h
    exact .inl ⟨call, rfl⟩
  | committed c' call =>
    obtain rfl : c' = c := Option.some.inj h
    exact .inr (.inl ⟨call, rfl⟩)
  | running c' call => exact .inr (.inr h)
  | returned c' => exact .inr (.inr h)
  | _ => exact absurd h (Option.some_ne_none c).symm

/-- The record of an executor fits the place where it is. -/
structure Exec.Fits (locked : Cid → Bool) (e : Exec Cid Call) (x : Stage Cid Call) : Prop where
  curr : e.curr = x.callout
  waiting : e.waiting = true → x.awaited = true
  drain : x.callout = none → e.drain = none
  /-- once a handler with a lock is called it cannot be cancelled -/
  cancel : ∀ c, x.started = some c → locked c = true → e.cancel = true

variable {locked : Cid → Bool} {e : Exec Cid Call} {x : Stage Cid Call}

/-- Other flags of an executor at a callout. -/
theorem Exec.Fits.setFlags (h : e.Fits locked x) {cancel waiting : Bool} {drain : Option Call}
    (hcancel : e.cancel = true → cancel = true)
    (hwait : waiting = true → e.waiting = true ∨ x.callout ≠ none)
    (hdrain : x.callout = none → drain = none) :
    Exec.Fits locked ⟨e.curr, cancel, waiting, drain⟩ x where
  curr := h.curr
  waiting := by
    intro hw
    exact (hwait hw).elim h.waiting Stage.awaited_of_callout
  drain := hdrain
  cancel := fun c hc hl => hcancel (h.cancel c hc hl)

/-- The callout that a thread drains, and the executor it looks at. -/
def Pc.drains : Pc Cid → Option (Cid × Bool)
  | .idle => none
  | .again c d => some (c, d)
  | .sleepq c d => some (c, d)
  | .locked c d => some (c, d)
  | .adding c d => some (c, d)
  | .asleep c d => some (c, d)

theorem Pc.drains_woken (direct : Bool) (pc : Pc Cid) : (pc.woken direct).drains = pc.drains := by
  cases pc with
  | asleep c d =>
    rw [Pc.woken]
    split <;> rfl
  | _ => rfl

end stage

section uniform

variable {Cid Lock Call Tid : Type*}

/-- The callout that an action arms, and whether as a direct one. -/
def Action.arms : Action Cid Lock Call Tid → Option (Cid × Bool)
  | .reset _ c _ _ _ direct => some (c, direct)
  | _ => none

/-- The callout that an action starts to drain. -/
def Action.drains : Action Cid Lock Call Tid → Option Cid
  | .drain _ c => some c
  | _ => none

/-- The section of `_callout_stop_safe` that an action is. -/
def Action.stops (w : World Cid Lock Call Tid) :
    Action Cid Lock Call Tid → Option (Stopping Cid Call)
  | .stopTurn a => w.stopping a
  | _ => none

/-- Callouts are armed as direct ones according to `mode`, a direct callout is not drained
before it is armed for the first time, and when it is stopped it is not armed for the first time
between the reading of `CALLOUT_DIRECT` and the section. -/
structure Action.Uniform (mode : Cid → Bool) (w : World Cid Lock Call Tid)
    (a : Action Cid Lock Call Tid) : Prop where
  arms : ∀ p ∈ a.arms, p.2 = mode p.1
  drains : ∀ c ∈ a.drains, (w.callouts c).direct = mode c
  stops : ∀ s ∈ a.stops w, s.direct = (w.callouts s.c).direct

theorem Action.uniform_iff {mode : Cid → Bool} {w : World Cid Lock Call Tid}
    {a : Action Cid Lock Call Tid} :
    a.Uniform mode w ↔ (∀ p ∈ a.arms, p.2 = mode p.1) ∧
      (∀ c ∈ a.drains, (w.callouts c).direct = mode c) ∧
        ∀ s ∈ a.stops w, s.direct = (w.callouts s.c).direct :=
  ⟨fun h => ⟨h.arms, h.drains, h.stops⟩, fun h => ⟨h.1, h.2.1, h.2.2⟩⟩

instance (mode : Cid → Bool) (w : World Cid Lock Call Tid) (a : Action Cid Lock Call Tid) :
    Decidable (a.Uniform mode w) := decidable_of_iff' _ Action.uniform_iff

end uniform

namespace World

variable {Cid Lock Call Tid : Type*}
variable {cfg : Setup Lock} {w w' : World Cid Lock Call Tid}

/-- The callout has a lock. -/
def locked (w : World Cid Lock Call Tid) (c : Cid) : Bool := (w.callouts c).lock.isSome

/-- The records of both executors fit. -/
def Fit (w : World Cid Lock Call Tid) : Prop :=
  ∀ d, (w.exec d).Fits w.locked (w.stage d)

theorem lock_update [DecidableEq Cid] {c : Cid} {k : Callout Lock Call}
    (hw : w'.callouts = Function.update w.callouts c k) (hk : k.lock = (w.callouts c).lock)
    (x : Cid) : (w'.callouts x).lock = (w.callouts x).lock := by
  rw [hw]
  by_cases hx : x = c
  · rw [hx, Function.update_self, hk]
  · rw [Function.update_of_ne hx]

/-- The locks of the callouts do not change. -/
theorem lock_of_trans [DecidableEq Cid] [DecidableEq Lock] [DecidableEq Tid]
    {a : Action Cid Lock Call Tid} (ht : Trans cfg w a w') (x : Cid) :
    (w'.callouts x).lock = (w.callouts x).lock := by
  cases ht with
  | takeDirect s c =>
    exact lock_update (c := c) (k := { w.callouts c with pending := false }) rfl rfl x
  | expire s c =>
    exact lock_update (c := c) (k := { w.callouts c with processed := true }) rfl rfl x
  | softclockTake c =>
    exact lock_update (c := c) (k := { w.callouts c with pending := false }) rfl rfl x
  | finish d c =>
    rw [finish]
    split
    · rfl
    · rw [wakeWaiting]
      split <;> rfl
  | drainReturns d =>
    rw [wakeWaiting]
    split <;> rfl
  | reset a c sbt precision call direct =>
    refine lock_update (callouts_calloutReset cfg w c sbt precision call direct) ?_ x
    rw [resetCallout]
    split <;> rfl
  | stopTurn a c direct executing drain =>
    exact lock_update (callouts_calloutStop cfg w c a direct executing drain) rfl x
  | drainDone t c => exact lock_update (callouts_drainDone cfg w c t) rfl x
  | drainUnlock t c d => exact lock_update (callouts_drainDone cfg _ c t) rfl x
  | _ => rfl

theorem locked_of_trans [DecidableEq Cid] [DecidableEq Lock] [DecidableEq Tid]
    {a : Action Cid Lock Call Tid} (ht : Trans cfg w a w') : w'.locked = w.locked :=
  funext fun x => congrArg Option.isSome (lock_of_trans ht x)

/-- One executor makes a step. -/
theorem forall_update {P : Exec Cid Call → Stage Cid Call → Prop} {exec : Bool → Exec Cid Call}
    {stage : Bool → Stage Cid Call} {d : Bool} {e : Exec Cid Call} {x : Stage Cid Call}
    (h : ∀ d', d' ≠ d → P (exec d') (stage d')) (hd : P e x) (d' : Bool) :
    P (Function.update exec d e d') (Function.update stage d x d') := by
  by_cases hd' : d' = d
  · rw [hd', Function.update_self, Function.update_self]
    exact hd
  · rw [Function.update_of_ne hd', Function.update_of_ne hd']
    exact h d' hd'

theorem forall_update_stage {P : Exec Cid Call → Stage Cid Call → Prop}
    {exec : Bool → Exec Cid Call} {stage : Bool → Stage Cid Call} {d : Bool}
    {x : Stage Cid Call} (h : ∀ d', d' ≠ d → P (exec d') (stage d')) (hd : P (exec d) x)
    (d' : Bool) : P (exec d') (Function.update stage d x d') := by
  have := forall_update h hd d'
  rwa [Function.update_eq_self] at this

theorem forall_update_exec {P : Exec Cid Call → Stage Cid Call → Prop}
    {exec : Bool → Exec Cid Call} {stage : Bool → Stage Cid Call} {d : Bool}
    {e : Exec Cid Call} (h : ∀ d, P (exec d) (stage d)) (hd : P e (stage d)) (d' : Bool) :
    P (Function.update exec d e d') (stage d') := by
  have := forall_update (d := d) (fun d' _ => h d') hd d'
  rwa [Function.update_eq_self] at this

section fit

variable {d : Bool} {c : Cid} {call : Call} {locked : Cid → Bool}

theorem Fit.enter (h : w.Fit) (c : Cid) (call : Call) (d : Bool) (d' : Bool) :
    (Function.update w.exec d { w.exec d with curr := some c, cancel := false, drain := none }
      d').Fits w.locked (Function.update w.stage d (.entered c call) d') := by
  refine forall_update (fun d' _ => h d') ⟨rfl, fun _ => rfl, fun hnone => ?_, fun x hx => ?_⟩ d'
  · exact absurd hnone (Option.some_ne_none c)
  · exact absurd hx (Option.some_ne_none x).symm

/-- An executor is done. -/
theorem fits_retire (h : ∀ d', d' ≠ d → (w.exec d').Fits locked (w.stage d'))
    (hcurr : (w.exec d).curr = none) (hwait : (w.exec d).waiting = false)
    (hdrain : (w.exec d).drain = none) (d' : Bool) :
    ((w.retire d).exec d').Fits locked ((w.retire d).stage d') := by
  refine forall_update_stage (x := .idle) h
    ⟨hcurr, fun hw => ?_, fun _ => hdrain, fun c hc => ?_⟩ d'
  · exact absurd (hwait.symm.trans hw) Bool.false_ne_true
  · exact absurd hc (Option.some_ne_none c).symm

/-- An executor wakes threads or is done. -/
theorem fits_wakeWaiting (h : ∀ d', d' ≠ d → (w.exec d').Fits locked (w.stage d'))
    (hcurr : (w.exec d).curr = none) (hdrain : (w.exec d).drain = none) (d' : Bool) :
    ((w.wakeWaiting d).exec d').Fits locked ((w.wakeWaiting d).stage d') := by
  rw [World.wakeWaiting]
  split
  · refine forall_update (e := { w.exec d with waiting := false }) (x := .waking) h
      ⟨hcurr, fun hw => ?_, fun _ => hdrain, fun c hc => ?_⟩ d'
    · exact absurd hw Bool.false_ne_true
    · exact absurd hc (Option.some_ne_none c).symm
  · next hwait => exact fits_retire h hcurr (eq_false_of_ne_true hwait) hdrain d'

/-- The handler is called. -/
theorem Fit.callHandler (h : w.Fit) (hstage : w.stage d = .entered c call ∨
    w.stage d = .committed c call) : (w.callHandler d c call).Fit := by
  have hcurr : (w.exec d).curr = some c := by
    rw [(h d).curr]
    rcases hstage with hstage | hstage <;> rw [hstage] <;> rfl
  refine forall_update (fun d' _ => h d')
    ⟨hcurr, fun _ => rfl, fun hnone => ?_, fun x hx hl => ?_⟩
  · exact absurd hnone (Option.some_ne_none c)
  · obtain rfl := Option.some.inj hx
    rw [Bool.or_eq_true]
    exact .inr hl

/-- The executor is done with the callout. -/
theorem Fit.finish (h : w.Fit) (c : Cid) (d' : Bool) :
    ((w.finish d c).exec d').Fits w.locked ((w.finish d c).stage d') := by
  rw [World.finish]
  split
  · refine forall_update (fun d' _ => h d') ⟨rfl, fun _ => rfl, fun _ => rfl, fun x hx => ?_⟩ d'
    exact absurd hx (Option.some_ne_none x).symm
  · refine fits_wakeWaiting (fun d' hd' => ?_) ?_ ?_ d'
    · simpa only [Function.update_of_ne hd'] using h d'
    · simp only [Function.update_self]
    · simp only [Function.update_self]

/-- `_callout_stop_safe` sets flags of an executor. -/
theorem fits_stopExec [DecidableEq Cid] [DecidableEq Tid] (h : w.Fit) (c : Cid) (a : Agent Tid)
    (direct : Bool) (drain : Option Call) :
    (w.stopExec c a direct drain).Fits w.locked (w.stage direct) := by
  have hd := h direct
  refine hd.setFlags (fun hc => ?_) .inl fun hnone => ?_
  · rw [hc, Bool.true_or]
  · have hcurr : w.current c direct = false := by
      rw [current, hd.curr, hnone]
      rfl
    rw [hcurr, Bool.false_and]
    exact hd.drain hnone

end fit

/-- The records of the executors fit after every step. -/
theorem fit_of_trans [DecidableEq Cid] [DecidableEq Lock] [DecidableEq Tid]
    {a : Action Cid Lock Call Tid} (h : w.Fit) (ht : Trans cfg w a w') : w'.Fit := by
  rw [Fit, locked_of_trans ht]
  cases ht with
  | takeDirect s c => exact h.enter c _ true
  | softclockTake c q => exact h.enter c _ false
  | lockCallout d c call l hstage =>
    have hd := h d
    rw [hstage] at hd
    refine forall_update_stage (fun d' _ => h d')
      ⟨hd.curr, hd.waiting, hd.drain, fun x hx => ?_⟩
    exact absurd hx (Option.some_ne_none x).symm
  | callUnlocked d c call hstage hlock => exact h.callHandler (.inl hstage)
  | skip d c call l hstage hlock hcancel =>
    have hd := h d
    rw [hstage] at hd
    exact forall_update_stage (fun d' _ => h d')
      ⟨hd.curr, hd.waiting, hd.drain, fun _ _ _ => hcancel⟩
  | commit d c call l hstage =>
    have hd := h d
    rw [hstage] at hd
    refine forall_update_stage (fun d' _ => h d')
      ⟨hd.curr, hd.waiting, hd.drain, fun x hx => ?_⟩
    exact absurd hx (Option.some_ne_none x).symm
  | callLocked d c call hstage => exact h.callHandler (.inr hstage)
  | handlerReturns d c call hstage =>
    have hd := h d
    rw [hstage] at hd
    exact forall_update_stage (fun d' _ => h d') ⟨hd.curr, hd.waiting, hd.drain, hd.cancel⟩
  | finish d c hstage => exact h.finish c
  | drainReturns d f hstage =>
    have hd := h d
    rw [hstage] at hd
    exact fits_wakeWaiting (fun d' _ => h d') hd.curr (hd.drain rfl)
  | wakeup d hstage =>
    have hd := h d
    rw [hstage] at hd
    have hwait : (w.exec d).waiting = false :=
      eq_false_of_ne_true fun hw => Bool.false_ne_true (hd.waiting hw)
    exact fits_retire (fun d' _ => h d') hd.curr hwait (hd.drain rfl)
  | reset a c sbt precision call direct =>
    rw [exec_calloutReset, (frame_calloutReset cfg w c sbt precision call direct).stage]
    refine forall_update_exec h ((h direct).setFlags (fun hc => ?_) .inl (h direct).drain)
    rw [hc, Bool.true_or]
  | stopTurn a c direct executing drain =>
    rw [exec_calloutStop, (frame_calloutStop cfg w c a direct executing drain).stage]
    exact forall_update_exec h (fits_stopExec h c a direct drain)
  | drainDone t c =>
    rw [exec_drainDone, stage_drainDone]
    exact h
  | drainUnlock t c d =>
    rw [exec_drainDone, stage_drainDone]
    exact h
  | drainWait t c d hpc hcurr =>
    refine forall_update_exec h ((h d).setFlags id (fun _ => .inr ?_) (h d).drain)
    rw [← (h d).curr, hcurr]
    exact Option.some_ne_none c
  | _ => exact h

/-! ### The locks of the callouts -/

/-- An executor that is going to call a callout with a lock has taken the lock. -/
def OwnedBy (lock : Cid → Option Lock) (stage : Bool → Stage Cid Call)
    (owner : Lock → Option (Agent Tid)) : Prop :=
  ∀ d c l, (stage d).holder = some c → lock c = some l → owner l = some (.handler d)

/-- The executors own the locks of the callouts that they are going to call. -/
def Owned (w : World Cid Lock Call Tid) : Prop :=
  OwnedBy (fun c => (w.callouts c).lock) w.stage w.owner

section owned

variable {lock : Cid → Option Lock} {stage : Bool → Stage Cid Call}
variable {owner : Lock → Option (Agent Tid)} {d : Bool} {l : Lock} {x : Stage Cid Call}

/-- An executor goes on with the lock, or without it. -/
theorem OwnedBy.setStage (h : OwnedBy lock stage owner)
    (hx : x.holder = none ∨ x.holder = (stage d).holder) :
    OwnedBy lock (Function.update stage d x) owner := by
  intro d' c l hc hl
  by_cases hd : d' = d
  · rw [hd, Function.update_self] at hc
    rw [hd]
    refine h d c l (hx.elim (fun hnone => ?_) fun heq => heq.symm.trans hc) hl
    exact absurd (hnone.symm.trans hc) (Option.some_ne_none c).symm
  · rw [Function.update_of_ne hd] at hc
    exact h d' c l hc hl

/-- A lock changes its owner, which is not an executor that is going to call. -/
theorem OwnedBy.setOwner [DecidableEq Lock] (h : OwnedBy lock stage owner) {o : Option (Agent Tid)}
    (hl : ∀ d c, (stage d).holder = some c → lock c = some l → owner l ≠ some (.handler d)) :
    OwnedBy lock stage (Function.update owner l o) := by
  intro d c l' hc hl'
  have hne : l' ≠ l := by
    rintro rfl
    exact hl d c hc hl' (h d c l' hc hl')
  rw [Function.update_of_ne hne]
  exact h d c l' hc hl'

/-- An executor releases a lock that it owns. -/
theorem OwnedBy.release [DecidableEq Lock] (h : OwnedBy lock stage owner) (hx : x.holder = none)
    (hown : owner l = some (.handler d)) :
    OwnedBy lock (Function.update stage d x) (Function.update owner l none) := by
  refine (h.setStage (.inl hx)).setOwner fun d' c hc _ heq => ?_
  obtain rfl : d = d' := by
    rw [hown] at heq
    exact Agent.handler.inj (Option.some.inj heq)
  rw [Function.update_self, hx] at hc
  exact absurd hc (Option.some_ne_none c).symm

/-- An executor that is going to call is not in a handler. -/
theorem not_isRunning_of_holder {c : Cid} (h : (w.stage d).holder = some c) :
    w.isRunning (.handler d) = false := by
  rw [isRunning]
  split
  · next hd => rw [hd] at h; exact absurd h (Option.some_ne_none c).symm
  · next hd => rw [hd] at h; exact absurd h (Option.some_ne_none c).symm
  · rfl

theorem holder_wakeWaiting (w : World Cid Lock Call Tid) (d : Bool) :
    ∃ x : Stage Cid Call, x.holder = none ∧
      (w.wakeWaiting d).stage = Function.update w.stage d x ∧
      (w.wakeWaiting d).owner = w.owner := by
  rw [World.wakeWaiting]
  split
  · exact ⟨.waking, rfl, rfl, rfl⟩
  · exact ⟨.idle, rfl, rfl, rfl⟩

/-- The executors own their locks after every step. -/
theorem owned_of_trans [DecidableEq Cid] [DecidableEq Lock] [DecidableEq Tid]
    {a : Action Cid Lock Call Tid} (h : w.Owned) (ht : Trans cfg w a w') : w'.Owned := by
  have hlock : (fun c => (w'.callouts c).lock) = fun c => (w.callouts c).lock :=
    funext (lock_of_trans ht)
  rw [Owned, hlock]
  cases ht with
  | takeDirect s c => exact OwnedBy.setStage h (.inl rfl)
  | softclockTake c q => exact OwnedBy.setStage h (.inl rfl)
  | lockCallout d c call l hstage hl hown =>
    intro d' c' l' hc hl'
    change (Function.update w.stage d (.holding c call) d').holder = some c' at hc
    change Function.update w.owner l (some (.handler d)) l' = _
    by_cases hd : d' = d
    · rw [hd, Function.update_self] at hc
      obtain rfl : c = c' := Option.some.inj hc
      obtain rfl : l = l' := Option.some.inj (hl.symm.trans hl')
      rw [hd, Function.update_self]
    · rw [Function.update_of_ne hd] at hc
      have hne : l' ≠ l := by
        rintro rfl
        exact Option.some_ne_none _ ((h d' c' l' hc hl').symm.trans hown)
      rw [Function.update_of_ne hne]
      exact h d' c' l' hc hl'
  | callUnlocked d c call => exact OwnedBy.setStage h (.inl rfl)
  | skip d c call l hstage hl =>
    exact OwnedBy.release h rfl (h d c l (by rw [hstage]; rfl) hl)
  | commit d c call l hstage => exact OwnedBy.setStage h (.inr (hstage ▸ rfl))
  | callLocked d c call => exact OwnedBy.setStage h (.inl rfl)
  | handlerReturns d c call hstage hcan =>
    have hstill : OwnedBy (fun c => (w.callouts c).lock)
        (Function.update w.stage d (.returned c)) w.owner := OwnedBy.setStage h (.inl rfl)
    simp only [World.handlerReturns]
    split
    · next l hl =>
      split
      · exact hstill
      · next hret =>
        simp only [canReturn, hl, eq_false_of_ne_true hret, Bool.false_or] at hcan
        exact OwnedBy.release h rfl (of_decide_eq_true hcan)
    · exact hstill
  | finish d c =>
    rw [World.finish]
    split
    · exact OwnedBy.setStage h (.inl rfl)
    · obtain ⟨x, hx, hstage, howner⟩ := holder_wakeWaiting { w with
        exec := Function.update w.exec d { w.exec d with curr := none, drain := none }
        log := w.log ++ [Event.leave c d] } d
      rw [hstage, howner]
      exact OwnedBy.setStage h (.inl hx)
  | drainReturns d f =>
    obtain ⟨x, hx, hstage, howner⟩ := holder_wakeWaiting w d
    rw [hstage, howner]
    exact OwnedBy.setStage h (.inl hx)
  | wakeup d => exact OwnedBy.setStage h (.inl rfl)
  | reset a c sbt precision call direct =>
    have hframe := frame_calloutReset cfg w c sbt precision call direct
    rw [hframe.stage, hframe.owner]
    exact h
  | stopTurn a c direct executing drain =>
    have hframe := frame_calloutStop cfg w c a direct executing drain
    rw [hframe.stage, hframe.owner]
    exact h
  | drainDone t c =>
    rw [stage_drainDone, owner_drainDone]
    exact h
  | drainUnlock t c d =>
    rw [stage_drainDone, owner_drainDone]
    exact h
  | lock a l hcan hown =>
    refine OwnedBy.setOwner h fun d c _ _ heq => ?_
    exact Option.some_ne_none _ (heq.symm.trans hown)
  | unlock a l hcan hown =>
    refine OwnedBy.setOwner h fun d c hc _ heq => ?_
    obtain rfl : a = .handler d := Option.some.inj (hown.symm.trans heq)
    have hrun := isRunning_of_canCall hcan
    rw [not_isRunning_of_holder hc] at hrun
    exact Bool.false_ne_true hrun
  | _ => exact h

theorem exists_lock_of_useLock [DecidableEq Tid] {a : Agent Tid} {c : Cid}
    (h : w.useLock a c = true) : ∃ l, (w.callouts c).lock = some l ∧ w.owner l = some a := by
  rw [useLock] at h
  split at h
  · next l hl => exact ⟨l, hl, of_decide_eq_true h⟩
  · exact absurd h Bool.false_ne_true

theorem locked_of_useLock [DecidableEq Tid] {a : Agent Tid} {c : Cid} (h : w.useLock a c = true) :
    w.locked c = true := by
  obtain ⟨l, hl, -⟩ := exists_lock_of_useLock h
  rw [locked, hl]
  rfl

/-- Whoever holds the lock of a callout while calling into the subsystem keeps the executors from
calling it. -/
theorem Owned.not_holder [DecidableEq Tid] (h : w.Owned) {a : Agent Tid} {c : Cid}
    (hrun : w.isRunning a = true) (huse : w.useLock a c = true) (d : Bool) :
    (w.stage d).holder ≠ some c := by
  intro hc
  obtain ⟨l, hl, hown⟩ := exists_lock_of_useLock huse
  obtain rfl : a = .handler d := Option.some.inj (hown.symm.trans (h d c l hc hl))
  rw [not_isRunning_of_holder hc] at hrun
  exact Bool.false_ne_true hrun

end owned

/-! ### Callouts and executors -/

/-- Every callout is with the executor it belongs to. -/
structure PairedWith (mode : Cid → Bool) (callouts : Cid → Callout Lock Call)
    (exec : Bool → Exec Cid Call) (stage : Bool → Stage Cid Call) (thread : Tid → Pc Cid) :
    Prop where
  direct : ∀ c, (callouts c).direct = true → mode c = true
  pending : ∀ c, (callouts c).pending = true → (callouts c).direct = mode c
  processed : ∀ c, (callouts c).pending = true → (callouts c).processed = true → mode c = false
  called : ∀ d c, (stage d).callout = some c → mode c = d ∧ (callouts c).direct = d
  /-- a callout that can still be cancelled at its executor is not armed again -/
  alone : ∀ d c call, (stage d).before = some (c, call) → (callouts c).lock.isSome = true →
    (exec d).cancel = false → (callouts c).pending = false
  drained : ∀ t c d, (thread t).drains = some (c, d) → d = mode c

/-- Every callout is with the executor it belongs to. -/
def Paired (mode : Cid → Bool) (w : World Cid Lock Call Tid) : Prop :=
  PairedWith mode w.callouts w.exec w.stage w.thread

section paired

variable {mode : Cid → Bool} {callouts : Cid → Callout Lock Call}
variable {exec exec' : Bool → Exec Cid Call} {stage : Bool → Stage Cid Call}
variable {thread : Tid → Pc Cid} {c : Cid} {k : Callout Lock Call} {d : Bool}

/-- An executor goes on with its callout, or leaves it. -/
theorem PairedWith.setStage (h : PairedWith mode callouts exec stage thread)
    {x : Stage Cid Call} (hcall : x.callout = none ∨ x.callout = (stage d).callout)
    (hbefore : x.before = none ∨ x.before = (stage d).before ∧ exec' d = exec d)
    (hexec : ∀ d', d' ≠ d → exec' d' = exec d') :
    PairedWith mode callouts exec' (Function.update stage d x) thread where
  direct := h.direct
  pending := h.pending
  processed := h.processed
  called := by
    intro d' c hc
    by_cases hd : d' = d
    · rw [hd, Function.update_self] at hc
      rw [hd]
      refine h.called d c (hcall.elim (fun hnone => ?_) fun heq => heq.symm.trans hc)
      exact absurd (hnone.symm.trans hc) (Option.some_ne_none c).symm
    · rw [Function.update_of_ne hd] at hc
      exact h.called d' c hc
  alone := by
    intro d' c call hb hl hcancel
    by_cases hd : d' = d
    · rw [hd, Function.update_self] at hb
      rw [hd] at hcancel
      rcases hbefore with hnone | ⟨heq, hex⟩
      · exact absurd (hnone.symm.trans hb) (Option.some_ne_none (c, call)).symm
      · exact h.alone d c call (heq.symm.trans hb) hl (hex ▸ hcancel)
    · rw [Function.update_of_ne hd] at hb
      exact h.alone d' c call hb hl (hexec d' hd ▸ hcancel)
  drained := h.drained

/-- Executors are told to cancel, drain or wake. -/
theorem PairedWith.setExec (h : PairedWith mode callouts exec stage thread)
    (hexec : ∀ d, (exec' d).cancel = false → (exec d).cancel = false) :
    PairedWith mode callouts exec' stage thread :=
  { h with alone := fun d c call hb hl hcancel => h.alone d c call hb hl (hexec d hcancel) }

/-- A callout leaves its list, and executors are told to cancel or drain. -/
theorem PairedWith.remove [DecidableEq Cid] (h : PairedWith mode callouts exec stage thread)
    (hlock : k.lock = (callouts c).lock) (hdirect : k.direct = (callouts c).direct)
    (hpend : k.pending = true → (callouts c).pending = true)
    (hproc : k.pending = true → k.processed = true → mode c = false)
    (hexec : ∀ d, (exec' d).cancel = false → (exec d).cancel = false) :
    PairedWith mode (Function.update callouts c k) exec' stage thread where
  direct := by
    intro x hx
    by_cases hxc : x = c
    · rw [hxc, Function.update_self, hdirect] at hx
      exact hxc ▸ h.direct c hx
    · rw [Function.update_of_ne hxc] at hx
      exact h.direct x hx
  pending := by
    intro x hx
    by_cases hxc : x = c
    · rw [hxc, Function.update_self] at hx ⊢
      rw [hdirect]
      exact h.pending c (hpend hx)
    · rw [Function.update_of_ne hxc] at hx ⊢
      exact h.pending x hx
  processed := by
    intro x hx hp
    by_cases hxc : x = c
    · rw [hxc, Function.update_self] at hx hp
      exact hxc ▸ hproc hx hp
    · rw [Function.update_of_ne hxc] at hx hp
      exact h.processed x hx hp
  called := by
    intro d x hx
    by_cases hxc : x = c
    · rw [hxc, Function.update_self, hdirect]
      exact h.called d c (hxc ▸ hx)
    · rw [Function.update_of_ne hxc]
      exact h.called d x hx
  alone := by
    intro d x call hb hl hcancel
    by_cases hxc : x = c
    · rw [hxc, Function.update_self, hlock] at hl
      rw [hxc, Function.update_self]
      have hnot := h.alone d c call (hxc ▸ hb) hl (hexec d hcancel)
      exact eq_false_of_ne_true fun hp => Bool.false_ne_true (hnot.symm.trans (hpend hp))
    · rw [Function.update_of_ne hxc] at hl ⊢
      exact h.alone d x call hb hl (hexec d hcancel)
  drained := h.drained

/-- An executor takes a callout. -/
theorem PairedWith.enter [DecidableEq Cid] (h : PairedWith mode callouts exec stage thread)
    (hlock : k.lock = (callouts c).lock) (hdirect : k.direct = (callouts c).direct)
    (hpend : k.pending = false) (hmode : mode c = d) (hd : (callouts c).direct = d)
    {call : Call} (hexec : ∀ d', d' ≠ d → exec' d' = exec d') :
    PairedWith mode (Function.update callouts c k) exec'
      (Function.update stage d (.entered c call)) thread := by
  have hout := h.remove (k := k) hlock hdirect (fun hp => absurd (hpend.symm.trans hp)
    Bool.false_ne_true) (fun hp => absurd (hpend.symm.trans hp) Bool.false_ne_true) fun _ => id
  refine { hout with called := ?_, alone := ?_ }
  · intro d' x hx
    by_cases hd' : d' = d
    · rw [hd', Function.update_self] at hx
      obtain rfl : c = x := Option.some.inj hx
      rw [hd', Function.update_self, hdirect]
      exact ⟨hmode, hd⟩
    · rw [Function.update_of_ne hd'] at hx
      exact hout.called d' x hx
  · intro d' x call' hb hl hcancel
    by_cases hd' : d' = d
    · rw [hd', Function.update_self] at hb
      obtain ⟨rfl, -⟩ := Prod.mk.inj (Option.some.inj hb)
      rw [Function.update_self]
      exact hpend
    · rw [Function.update_of_ne hd'] at hb
      exact hout.alone d' x call' hb hl (hexec d' hd' ▸ hcancel)

/-- A callout is armed. -/
theorem PairedWith.arm [DecidableEq Cid] (h : PairedWith mode callouts exec stage thread)
    (hcurr : ∀ d x, (stage d).callout = some x → (exec d).curr = some x)
    (hlock : k.lock = (callouts c).lock) (hproc : k.processed = false)
    (hdirect : k.direct = ((callouts c).direct || mode c))
    (hcancel : ∀ d, (exec' d).cancel = false → (exec d).cancel = false ∧
      (d = mode c → (callouts c).lock.isSome = true → (exec d).curr ≠ some c)) :
    PairedWith mode (Function.update callouts c k) exec' stage thread := by
  have hmode : k.direct = mode c := by
    rw [hdirect]
    rcases hd : (callouts c).direct with _ | _
    · exact Bool.false_or _
    · rw [h.direct c hd, Bool.or_true]
  refine ⟨?_, ?_, ?_, ?_, ?_, h.drained⟩
  · intro x hx
    by_cases hxc : x = c
    · rw [hxc, Function.update_self, hmode] at hx
      exact hxc ▸ hx
    · rw [Function.update_of_ne hxc] at hx
      exact h.direct x hx
  · intro x hx
    by_cases hxc : x = c
    · rw [hxc, Function.update_self]
      exact hmode
    · rw [Function.update_of_ne hxc] at hx ⊢
      exact h.pending x hx
  · intro x hx hp
    by_cases hxc : x = c
    · rw [hxc, Function.update_self, hproc] at hp
      exact absurd hp Bool.false_ne_true
    · rw [Function.update_of_ne hxc] at hx hp
      exact h.processed x hx hp
  · intro d x hx
    by_cases hxc : x = c
    · obtain ⟨hm, -⟩ := h.called d c (hxc ▸ hx)
      rw [hxc, Function.update_self, hmode]
      exact ⟨hm, hm⟩
    · rw [Function.update_of_ne hxc]
      exact h.called d x hx
  · intro d x call hb hl hc
    obtain ⟨hc, hself⟩ := hcancel d hc
    by_cases hxc : x = c
    · -- the executor is at the callout, which has a lock: it is told to cancel
      rw [hxc] at hb
      rw [hxc, Function.update_self, hlock] at hl
      have hat := Stage.callout_of_before hb
      exact absurd (hcurr d c hat) (hself (h.called d c hat).1.symm hl)
    · rw [Function.update_of_ne hxc] at hl ⊢
      exact h.alone d x call hb hl hc

/-- An executor is done with a callout. -/
theorem PairedWith.retire (h : PairedWith mode callouts exec w.stage thread)
    (hexec : ∀ d', d' ≠ d → w.exec d' = exec d') :
    PairedWith mode callouts (w.retire d).exec (w.retire d).stage thread :=
  h.setStage (.inl rfl) (.inl rfl) hexec

theorem PairedWith.wakeWaiting (h : PairedWith mode callouts exec w.stage thread)
    (hexec : ∀ d', d' ≠ d → w.exec d' = exec d') :
    PairedWith mode callouts (w.wakeWaiting d).exec (w.wakeWaiting d).stage thread := by
  rw [World.wakeWaiting]
  split
  · refine h.setStage (.inl rfl) (.inl rfl) fun d' hd' => ?_
    exact (Function.update_of_ne hd' _ _).trans (hexec d' hd')
  · exact h.retire hexec

theorem callouts_wakeWaiting (w : World Cid Lock Call Tid) (d : Bool) :
    (w.wakeWaiting d).callouts = w.callouts ∧ (w.wakeWaiting d).thread = w.thread := by
  rw [World.wakeWaiting]
  split <;> exact ⟨rfl, rfl⟩

theorem Paired.finish (h : w.Paired mode) (d : Bool) (c : Cid) : (w.finish d c).Paired mode := by
  rw [Paired, World.finish]
  split
  · exact h.setStage (.inl rfl) (.inl rfl) fun d' hd' => Function.update_of_ne hd' _ _
  · rw [(callouts_wakeWaiting _ d).1, (callouts_wakeWaiting _ d).2]
    refine PairedWith.wakeWaiting h fun d' hd' => ?_
    exact Function.update_of_ne hd' _ _

/-- A thread drains the callout it drained before. -/
theorem PairedWith.setThread [DecidableEq Tid] (h : PairedWith mode callouts exec stage thread)
    {t : Tid} {pc : Pc Cid} (hpc : pc.drains = none ∨ pc.drains = (thread t).drains) :
    PairedWith mode callouts exec stage (Function.update thread t pc) := by
  refine { h with drained := ?_ }
  intro t' c d ht
  by_cases heq : t' = t
  · rw [heq, Function.update_self] at ht
    refine h.drained t c d (hpc.elim (fun hnone => ?_) fun hpc => hpc.symm.trans ht)
    exact absurd (hnone.symm.trans ht) (Option.some_ne_none (c, d)).symm
  · rw [Function.update_of_ne heq] at ht
    exact h.drained t' c d ht

theorem Paired.drainDone [DecidableEq Cid] [DecidableEq Tid] (h : w.Paired mode) (t : Tid)
    (c : Cid) : (w.drainDone cfg t c).Paired mode := by
  rw [Paired, callouts_drainDone, exec_drainDone, stage_drainDone, thread_drainDone]
  have hout := PairedWith.remove (c := c)
    (k := { w.callouts c with
      pending := false
      active := (w.callouts c).active && !(w.callouts c).pending }) h rfl rfl
    (fun hp => absurd hp Bool.false_ne_true) (fun hp => absurd hp Bool.false_ne_true) fun _ => id
  exact hout.setThread (.inl rfl)

theorem Paired.reset [DecidableEq Cid] (h : w.Paired mode) (hfit : w.Fit) (sbt precision : ℕ)
    (call : Call) : (w.calloutReset cfg c sbt precision call (mode c)).Paired mode := by
  have hframe := frame_calloutReset cfg w c sbt precision call (mode c)
  rw [Paired, callouts_calloutReset, exec_calloutReset, hframe.stage, hframe.thread, resetCallout]
  have hcancel : ∀ d, ((w.cancelCurr c (mode c)).exec d).cancel = false →
      (w.exec d).cancel = false ∧
        (d = mode c → (w.callouts c).lock.isSome = true → (w.exec d).curr ≠ some c) := by
    intro d hd
    by_cases hdm : d = mode c
    · simp only [cancelCurr, hdm, Function.update_self, Bool.or_eq_false_iff] at hd
      refine ⟨hdm ▸ hd.1, fun _ hl hcurr => ?_⟩
      rw [← hdm, hcurr, hl] at hd
      simp at hd
    · simp only [cancelCurr, Function.update_of_ne hdm] at hd
      exact ⟨hd, fun heq => absurd heq hdm⟩
  split
  · exact PairedWith.arm h (fun d x hx => ((hfit d).curr.trans hx)) rfl rfl rfl hcancel
  · rw [Function.update_eq_self]
    exact PairedWith.setExec h fun d hd => (hcancel d hd).1

theorem Paired.stop [DecidableEq Cid] [DecidableEq Tid] (h : w.Paired mode) (a : Agent Tid)
    (c : Cid) (direct executing : Bool) (drain : Option Call) :
    (w.calloutStop cfg a c direct executing drain).Paired mode := by
  have hframe := frame_calloutStop cfg w c a direct executing drain
  rw [Paired, callouts_calloutStop, exec_calloutStop, hframe.stage, hframe.thread]
  refine PairedWith.remove h rfl rfl (fun hp => ?_) (fun hp => ?_) fun d hd => ?_
  · exact (Bool.and_eq_true_iff.mp hp).1
  · exact h.processed c (Bool.and_eq_true_iff.mp hp).1
  · by_cases heq : d = direct
    · rw [heq, Function.update_self, stopExec, Bool.or_eq_false_iff] at hd
      exact heq ▸ hd.1
    · rwa [Function.update_of_ne heq] at hd

/-- **Every callout stays with its executor**, if callouts are armed uniformly. -/
theorem paired_of_trans [DecidableEq Cid] [DecidableEq Lock] [DecidableEq Tid]
    {a : Action Cid Lock Call Tid} (hl : View.Linked cfg w.view) (hfit : w.Fit)
    (h : w.Paired mode) (hok : a.Uniform mode w) (ht : Trans cfg w a w') : w'.Paired mode := by
  cases ht with
  | takeDirect s c hscan hidle htmp hdue hdirect =>
    have hmem := hl.tmp_mem hscan (congrArg Stage.engaged hidle) htmp
    have hpend : (w.callouts c).pending = true := ((hl.lists.mem_callwheel c _).mp hmem).1
    refine PairedWith.enter (k := { w.callouts c with pending := false }) h rfl rfl rfl
      ((h.pending c hpend).symm.trans hdirect) hdirect ?_
    exact fun d' hd' => Function.update_of_ne hd' _ _
  | expire s c hscan hidle htmp hdue hdirect =>
    have hmem := hl.tmp_mem hscan (congrArg Stage.engaged hidle) htmp
    have hpend : (w.callouts c).pending = true := ((hl.lists.mem_callwheel c _).mp hmem).1
    exact PairedWith.remove h rfl rfl id (fun _ _ => (h.pending c hpend).symm.trans hdirect)
      fun _ => id
  | softclockTake c q hsoft hidle hfree hq =>
    have hmem : c ∈ w.view.expireq := by
      change c ∈ w.expireq
      rw [hq]
      exact List.mem_cons_self
    obtain ⟨hpend, hproc⟩ := (hl.lists.mem_expireq c).mp hmem
    have hmode : mode c = false := h.processed c hpend hproc
    refine PairedWith.enter (k := { w.callouts c with pending := false }) h rfl rfl rfl hmode
      ((h.pending c hpend).trans hmode) ?_
    exact fun d' hd' => Function.update_of_ne hd' _ _
  | lockCallout d c call l hstage =>
    exact PairedWith.setStage h (.inr (hstage ▸ rfl)) (.inr ⟨hstage ▸ rfl, rfl⟩) fun _ _ => rfl
  | callUnlocked d c call hstage =>
    refine PairedWith.setStage h (.inr (hstage ▸ rfl)) (.inl rfl) ?_
    exact fun d' hd' => Function.update_of_ne hd' _ _
  | skip d c call l hstage =>
    exact PairedWith.setStage h (.inr (hstage ▸ rfl)) (.inl rfl) fun _ _ => rfl
  | commit d c call l hstage =>
    exact PairedWith.setStage h (.inr (hstage ▸ rfl)) (.inl rfl) fun _ _ => rfl
  | callLocked d c call hstage =>
    refine PairedWith.setStage h (.inr (hstage ▸ rfl)) (.inl rfl) ?_
    exact fun d' hd' => Function.update_of_ne hd' _ _
  | handlerReturns d c call hstage =>
    exact PairedWith.setStage h (.inr (hstage ▸ rfl)) (.inl rfl) fun _ _ => rfl
  | finish d c => exact h.finish d c
  | drainReturns d f =>
    rw [Paired, (callouts_wakeWaiting _ d).1, (callouts_wakeWaiting _ d).2]
    exact PairedWith.wakeWaiting h fun _ _ => rfl
  | wakeup d =>
    have hthread : PairedWith mode w.callouts w.exec w.stage fun t => (w.thread t).woken d := by
      refine { h with drained := ?_ }
      intro t c d' ht
      rw [Pc.drains_woken] at ht
      exact h.drained t c d' ht
    exact PairedWith.retire hthread fun _ _ => rfl
  | reset a c sbt precision call direct =>
    obtain rfl : direct = mode c := hok.arms (c, direct) rfl
    exact h.reset hfit sbt precision call
  | stopTurn a c direct executing drain => exact h.stop a c direct executing drain
  | drain t c hpc =>
    refine { h with drained := ?_ }
    intro t' c' d' ht
    change (Function.update w.thread t (.again c (w.callouts c).direct) t').drains = _ at ht
    by_cases heq : t' = t
    · rw [heq, Function.update_self] at ht
      obtain ⟨rfl, rfl⟩ := Prod.mk.inj (Option.some.inj ht)
      exact hok.drains c rfl
    · rw [Function.update_of_ne heq] at ht
      exact h.drained t' c' d' ht
  | drainBusy t c d hpc => exact PairedWith.setThread h (.inr (hpc ▸ rfl))
  | drainDone t c d => exact h.drainDone t c
  | drainLock t c d hpc => exact PairedWith.setThread h (.inr (hpc ▸ rfl))
  | drainWait t c d hpc =>
    have hthread : PairedWith mode w.callouts w.exec w.stage
        (Function.update w.thread t (.adding c d)) := PairedWith.setThread h (.inr (hpc ▸ rfl))
    refine hthread.setExec fun d' => ?_
    dsimp only
    by_cases hd' : d' = d
    · rw [hd', Function.update_self]
      exact id
    · rw [Function.update_of_ne hd']
      exact id
  | drainUnlock t c d =>
    exact Paired.drainDone (w := { w with sleepq := Function.update w.sleepq d none }) h t c
  | drainSleep t c d hpc => exact PairedWith.setThread h (.inr (hpc ▸ rfl))
  | drainAwake t c d hpc => exact PairedWith.setThread h (.inr (hpc ▸ rfl))
  | _ => exact h

/-! ### Every run -/

open Transition

variable {lock : Cid → Option Lock} {returnUnlocked : Cid → Bool} {call : Call}

/-- What holds in every state reached by uniform actions. -/
structure Orderly (cfg : Setup Lock) (mode : Cid → Bool) (w : World Cid Lock Call Tid) :
    Prop where
  linked : View.Linked cfg w.view
  fit : w.Fit
  owned : w.Owned
  paired : w.Paired mode

theorem fit_init : (init lock returnUnlocked call : World Cid Lock Call Tid).Fit := fun _ =>
  ⟨rfl, fun hw => absurd hw Bool.false_ne_true, fun _ => rfl,
    fun c hc => absurd hc (Option.some_ne_none c).symm⟩

theorem orderly_of_reach [DecidableEq Cid] [DecidableEq Lock] [DecidableEq Tid]
    (h : Reach (step cfg) (fun w a => a.Uniform mode w) (init lock returnUnlocked call) w) :
    Orderly cfg mode w := by
  refine h.induct (I := Orderly cfg mode) ⟨linked_init _ _ _, fit_init, ?_, ?_⟩ ?_
  · exact fun d c l hc => absurd hc (Option.some_ne_none c).symm
  · exact
      { direct := fun c hc => absurd hc Bool.false_ne_true
        pending := fun c hc => absurd hc Bool.false_ne_true
        processed := fun c hc => absurd hc Bool.false_ne_true
        called := fun d c hc => absurd hc (Option.some_ne_none c).symm
        alone := fun d c call hb => absurd hb (Option.some_ne_none (c, call)).symm
        drained := fun t c d ht => absurd ht (Option.some_ne_none (c, d)).symm }
  · intro w w' a hw hok hs
    have ht := trans_of_step hs
    exact ⟨linked_of_trans hw.linked ht, fit_of_trans hw.fit ht, owned_of_trans hw.owned ht,
      paired_of_trans hw.linked hw.fit hw.paired hok ht⟩

end paired

end World

end VosStack.Timeout
