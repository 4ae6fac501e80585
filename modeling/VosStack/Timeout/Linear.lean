import VosStack.Timeout.Progress
import VosStack.Timeout.Timer

/-!
# Callouts are one-shot timers

The log of every run of the subsystem is a run of the specification of timers, as long as every
callout is armed as direct always or never, and with its lock held. A callout as a timer is
armed if it is pending, and due if the executor it belongs to is going to call it. Each section
under `cc_lock` is a step of one timer, or of none; only the scan that calls a direct callout
makes two steps at once.
-/

namespace VosStack.Timeout

section locks

variable {Cid Lock Call Tid : Type*}

/-- The callout that an action arms, and who does it. -/
def Action.armedBy : Action Cid Lock Call Tid → Option (Agent Tid × Cid)
  | .reset a c _ _ _ _ => some (a, c)
  | _ => none

/-- Whoever arms a callout that has a lock holds the lock. `callout_reset_sbt_on` does not check
this; without it the executor may already have found `cc_cancel` clear. -/
def Action.HoldsLock (w : World Cid Lock Call Tid) (a : Action Cid Lock Call Tid) : Prop :=
  ∀ p ∈ a.armedBy, ∀ l ∈ (w.callouts p.2).lock, w.owner l = some p.1

instance [DecidableEq Tid] (w : World Cid Lock Call Tid) (a : Action Cid Lock Call Tid) :
    Decidable (a.HoldsLock w) := inferInstanceAs (Decidable (∀ p ∈ a.armedBy, _))

end locks

/-! ### The timers of the subsystem -/

section timer

variable {Cid Lock Call : Type*} [DecidableEq Cid]

/-- The call that an executor is going to make. A call of a callout with a lock may have been
cancelled, as long as `cc_cancel` is not yet tested. -/
def Exec.due (locked : Bool) (e : Exec Cid Call) (x : Stage Cid Call) (c : Cid) : Option Call :=
  match x with
  | .entered c' call => if c' = c ∧ (locked && e.cancel) = false then some call else none
  | .holding c' call => if c' = c ∧ (locked && e.cancel) = false then some call else none
  | .committed c' call => if c' = c then some call else none
  | _ => none

/-- The callout as a timer, with the executor it belongs to. -/
def Callout.timer (k : Callout Lock Call) (e : Exec Cid Call) (x : Stage Cid Call) (c : Cid) :
    Timer Call where
  armed := if k.pending then some (k.time, k.call) else none
  expired := k.pending && k.processed
  due := e.due k.lock.isSome x c
  busy := decide (x.callout = some c)

variable {k : Callout Lock Call} {e e' : Exec Cid Call} {x x' : Stage Cid Call} {c : Cid}
variable {locked : Bool}

theorem Exec.due_of_before {call : Call} (hx : x.before = some (c, call))
    (hcancel : (locked && e.cancel) = false) : e.due locked x c = some call := by
  cases x with
  | entered c' call' =>
    obtain ⟨rfl, rfl⟩ := Prod.mk.inj (Option.some.inj hx)
    exact if_pos ⟨rfl, hcancel⟩
  | holding c' call' =>
    obtain ⟨rfl, rfl⟩ := Prod.mk.inj (Option.some.inj hx)
    exact if_pos ⟨rfl, hcancel⟩
  | _ => exact absurd hx (Option.some_ne_none _).symm

theorem Exec.due_of_cancel (h : (locked && e.cancel) = true)
    (hx : ∀ call, x ≠ .committed c call) : e.due locked x c = none := by
  have hnot : ∀ c', ¬ (c' = c ∧ (locked && e.cancel) = false) := by
    rintro c' ⟨-, hand⟩
    exact Bool.false_ne_true (hand.symm.trans h)
  cases x with
  | entered c' call => exact if_neg (hnot c')
  | holding c' call => exact if_neg (hnot c')
  | committed c' call => exact if_neg fun (heq : c' = c) => hx call (heq ▸ rfl)
  | _ => rfl

theorem Exec.due_of_callout (h : x.callout ≠ some c) : e.due locked x c = none := by
  cases x with
  | entered c' call => exact if_neg fun (hand : c' = c ∧ _) => h (hand.1 ▸ rfl)
  | holding c' call => exact if_neg fun (hand : c' = c ∧ _) => h (hand.1 ▸ rfl)
  | committed c' call => exact if_neg fun (heq : c' = c) => h (heq ▸ rfl)
  | _ => rfl

theorem Exec.due_of_started (h : x.started = some c) : e.due locked x c = none := by
  cases x with
  | running c' call => rfl
  | returned c' => rfl
  | _ => exact absurd h (Option.some_ne_none c).symm

/-- An executor that has the callout and can still cancel it is going to call it. -/
theorem Exec.Fits.isSome_due {lockedAt : Cid → Bool} (h : e.Fits lockedAt x)
    (hlock : lockedAt c = true) (hx : ∀ call, x ≠ .committed c call) :
    (e.due true x c).isSome = (decide (e.curr = some c) && !e.cancel) := by
  by_cases hcurr : e.curr = some c
  · have hat : x.callout = some c := h.curr.symm.trans hcurr
    rcases hcancel : e.cancel with _ | _
    · rcases Stage.cases_of_callout hat with ⟨call, hb⟩ | ⟨call, hc⟩ | hs
      · rw [Exec.due_of_before hb (by rw [hcancel]; rfl)]
        simp [hcurr]
      · exact absurd hc (hx call)
      · exact absurd (hcancel.symm.trans (h.cancel c hs hlock)) Bool.false_ne_true
    · rw [Exec.due_of_cancel (by rw [hcancel]; rfl) hx]
      simp
  · have hat : x.callout ≠ some c := fun hat => hcurr (h.curr.trans hat)
    rw [Exec.due_of_callout hat]
    simp [hcurr]

/-- For the callout it makes no difference whether an executor is one way or the other. -/
structure Alike (c : Cid) (e e' : Exec Cid Call) (x x' : Stage Cid Call) : Prop where
  due : ∀ locked, e'.due locked x' c = e.due locked x c
  callout : x'.callout = some c ↔ x.callout = some c

theorem Alike.refl (c : Cid) (e : Exec Cid Call) (x : Stage Cid Call) : Alike c e e x x :=
  ⟨fun _ => rfl, Iff.rfl⟩

theorem Alike.of_ne (hx : x.callout ≠ some c) (hx' : x'.callout ≠ some c) :
    Alike c e e' x x' where
  due := fun _ => by rw [Exec.due_of_callout hx, Exec.due_of_callout hx']
  callout := iff_of_false hx' hx

theorem Alike.of_cancel (h : e'.cancel = e.cancel) : Alike c e e' x x where
  due := fun _ => by simp only [Exec.due, h]
  callout := Iff.rfl

theorem timer_of_alike (h : Alike c e e' x x') : k.timer e' x' c = k.timer e x c := by
  simp only [Callout.timer, h.due, h.callout]

end timer

namespace World

variable {Cid Lock Call Tid : Type*}
variable {cfg : Setup Lock} {w w' : World Cid Lock Call Tid} {mode : Cid → Bool}

theorem useLock_of_holdsLock [DecidableEq Tid] {a : Agent Tid} {c : Cid} (hlock : w.locked c = true)
    (hown : ∀ l, (w.callouts c).lock = some l → w.owner l = some a) : w.useLock a c = true := by
  obtain ⟨l, hl⟩ := Option.isSome_iff_exists.mp hlock
  rw [useLock, hl]
  exact decide_eq_true (hown l hl)

theorem exec_wakeWaiting (w : World Cid Lock Call Tid) {d d' : Bool} (hd : d' ≠ d) :
    (w.wakeWaiting d).exec d' = w.exec d' ∧ (w.wakeWaiting d).stage d' = w.stage d' := by
  rw [World.wakeWaiting]
  split
  · exact ⟨Function.update_of_ne hd _ _, Function.update_of_ne hd _ _⟩
  · exact ⟨rfl, Function.update_of_ne hd _ _⟩

theorem callout_wakeWaiting (w : World Cid Lock Call Tid) (d : Bool) :
    ((w.wakeWaiting d).stage d).callout = none := by
  rw [World.wakeWaiting]
  split
  · simp [Stage.callout]
  · simp [retire, Stage.callout]

variable [DecidableEq Cid]

/-- The callouts as timers. -/
def timers (mode : Cid → Bool) (w : World Cid Lock Call Tid) (c : Cid) : Timer Call :=
  (w.callouts c).timer (w.exec (mode c)) (w.stage (mode c)) c

section timers

variable {exec exec' : Bool → Exec Cid Call} {stage stage' : Bool → Stage Cid Call} {c : Cid}
variable {d : Bool}

theorem timers_of_alike {x : Cid} (hk : w'.callouts x = w.callouts x)
    (h : ∀ d, Alike x (w.exec d) (w'.exec d) (w.stage d) (w'.stage d)) :
    w'.timers mode x = w.timers mode x := by
  rw [timers, hk]
  exact timer_of_alike (h (mode x))

/-- An executor that goes on makes no difference to callouts it does not have. -/
theorem alike_update {x : Cid} {e : Exec Cid Call} {y : Stage Cid Call}
    (h : Alike x (exec d) e (stage d) y) (d' : Bool) :
    Alike x (exec d') (Function.update exec d e d') (stage d') (Function.update stage d y d') := by
  by_cases hd : d' = d
  · rw [hd, Function.update_self, Function.update_self]
    exact h
  · rw [Function.update_of_ne hd, Function.update_of_ne hd]
    exact .refl _ _ _

theorem alike_update_stage {x : Cid} {y : Stage Cid Call}
    (h : Alike x (exec d) (exec d) (stage d) y) (d' : Bool) :
    Alike x (exec d') (exec d') (stage d') (Function.update stage d y d') := by
  have := alike_update h d'
  rwa [Function.update_eq_self] at this

theorem alike_update_exec {x : Cid} {e : Exec Cid Call}
    (h : Alike x (exec d) e (stage d) (stage d)) (d' : Bool) :
    Alike x (exec d') (Function.update exec d e d') (stage d') (stage d') := by
  have := alike_update h d'
  rwa [Function.update_eq_self] at this

/-- An executor without a callout has no difference to make. -/
theorem alike_wakeWaiting {x : Cid} (hx : (w.stage d).callout ≠ some x) (d' : Bool) :
    Alike x (w.exec d') ((w.wakeWaiting d).exec d') (w.stage d') ((w.wakeWaiting d).stage d') := by
  rw [World.wakeWaiting]
  split
  · exact alike_update (y := .waking) (.of_ne hx (Option.some_ne_none x).symm) d'
  · exact alike_update_stage (y := .idle) (.of_ne hx (Option.some_ne_none x).symm) d'

end timers

/-! ### Every step is a run of the timers -/

open Transition

section steps

variable {c : Cid} {d : Bool} {call : Call}

/-- The step logs the events, and they are a run of the timers. -/
def Explained (mode : Cid → Bool) (w w' : World Cid Lock Call Tid) : Prop :=
  ∃ es, w'.log = w.log ++ es ∧ Legal (TimerSpec w.locked) (w.timers mode) es (w'.timers mode)

/-- The step logs nothing and makes no difference. -/
theorem Explained.silent (hlog : w'.log = w.log) (hk : w'.callouts = w.callouts)
    (h : ∀ x d, Alike x (w.exec d) (w'.exec d) (w.stage d) (w'.stage d)) :
    Explained mode w w' := by
  have htimers : w'.timers mode = w.timers mode :=
    funext fun x => timers_of_alike (congrFun hk x) (h x)
  refine ⟨[], ?_, ?_⟩
  · rw [hlog, List.append_nil]
  · rw [htimers]
    exact .nil

/-- The step makes a difference to one callout. -/
structure Touches (c : Cid) (w w' : World Cid Lock Call Tid) : Prop where
  callouts : ∀ x, x ≠ c → w'.callouts x = w.callouts x
  alike : ∀ x d, x ≠ c → Alike x (w.exec d) (w'.exec d) (w.stage d) (w'.stage d)

theorem Touches.timers (h : Touches c w w') :
    w'.timers mode = Function.update (w.timers mode) c (w'.timers mode c) := by
  funext x
  by_cases hx : x = c
  · rw [hx, Function.update_self]
  · rw [Function.update_of_ne hx]
    exact timers_of_alike (h.callouts x hx) fun d => h.alike x d hx

/-- The step logs one event. -/
theorem Touches.explained {e : Event Cid Call} (h : Touches c w w') (hc : e.callout = c)
    (hlog : w'.log = w.log ++ [e])
    (he : TimerStep (w.locked c) (w.timers mode c) e (w'.timers mode c)) :
    Explained mode w w' := by
  refine ⟨[e], hlog, ?_⟩
  rw [h.timers]
  exact .single (.of_update hc he)

/-- An executor takes a callout. -/
theorem touches_enter {k : Callout Lock Call} {e : Exec Cid Call}
    (hk : w'.callouts = Function.update w.callouts c k)
    (hexec : w'.exec = Function.update w.exec d e)
    (hstage : w'.stage = Function.update w.stage d (.entered c call))
    (hidle : w.stage d = .idle) : Touches c w w' where
  callouts := fun x hx => by rw [hk, Function.update_of_ne hx]
  alike := by
    intro x d' hx
    rw [hexec, hstage]
    have hne : some c ≠ some x := fun heq => hx (Option.some.inj heq).symm
    refine alike_update (y := .entered c call) (.of_ne ?_ hne) d'
    rw [hidle]
    exact (Option.some_ne_none x).symm

theorem timers_enter (hmode : mode c = d) :
    (w.softclockCallCc c d).timers mode c = ⟨none, false, some (w.callouts c).call, true⟩ := by
  subst hmode
  have hdue := Exec.due_of_before (c := c) (x := .entered c (w.callouts c).call)
    (e := { w.exec (mode c) with curr := some c, cancel := false, drain := none }) rfl
    (Bool.and_false (w.callouts c).lock.isSome)
  simp [timers, softclockCallCc, Callout.timer, Stage.callout, hdue]

/-- The timer of a callout that no executor has. -/
theorem busy_of_idle (hidle : w.stage d = .idle) (hmode : mode c = d) :
    (w.timers mode c).busy = false := by
  simp [timers, Callout.timer, hmode, hidle, Stage.callout]

theorem armed_of_pending (hpend : (w.callouts c).pending = true) :
    (w.timers mode c).armed = some ((w.callouts c).time, (w.callouts c).call) :=
  if_pos hpend

theorem isSome_armed (w : World Cid Lock Call Tid) (mode : Cid → Bool) (c : Cid) :
    (w.timers mode c).armed.isSome = (w.callouts c).pending := by
  rcases hpend : (w.callouts c).pending with _ | _
  · simp [timers, Callout.timer, hpend]
  · simp [timers, Callout.timer, hpend]

/-- An executor calls or leaves the callout it has. -/
theorem explained_stage (busy : Bool) {y : Stage Cid Call} {e : Event Cid Call} {τ : Timer Call}
    (hk : w'.callouts = w.callouts)
    (hexec : ∀ d, d ≠ mode c → w'.exec d = w.exec d)
    (hstage : ∀ d, d ≠ mode c → w'.stage d = w.stage d)
    (hat : (w.stage (mode c)).callout = some c) (hy : w'.stage (mode c) = y)
    (hdue : ∀ (locked : Bool) (e : Exec Cid Call), e.due locked y c = none)
    (hcall : y.callout = if busy then some c else none)
    (hc : e.callout = c) (hlog : w'.log = w.log ++ [e])
    (he : TimerStep (w.locked c) (w.timers mode c) e τ)
    (hτ : τ = { w.timers mode c with due := none, busy := busy }) : Explained mode w w' := by
  have htouch : Touches c w w' := by
    refine ⟨fun x _ => congrFun hk x, fun x d hx => ?_⟩
    by_cases hd : d = mode c
    · have hne : some c ≠ some x := fun heq => hx (Option.some.inj heq).symm
      rw [hd, hy]
      refine .of_ne (hat ▸ hne) ?_
      rw [hcall]
      split
      · exact hne
      · exact (Option.some_ne_none x).symm
    · rw [hexec d hd, hstage d hd]
      exact .refl _ _ _
  refine htouch.explained hc hlog ?_
  have htimer : w'.timers mode c = τ := by
    have hbusy : decide ((if busy then some c else none) = some c) = busy := by
      cases busy <;> simp
    rw [timers, Callout.timer, hk, hy, hdue, hcall, hbusy, hτ]
    rfl
  rw [htimer]
  exact he

/-- The handler is called. -/
theorem explained_call (hat : (w.stage (mode c)).callout = some c)
    (hdue : (w.timers mode c).due = some call) :
    Explained mode w (w.callHandler (mode c) c call) := by
  have hbusy : (w.timers mode c).busy = true := decide_eq_true hat
  exact explained_stage true rfl (fun d hd => Function.update_of_ne hd _ _)
    (fun d hd => Function.update_of_ne hd _ _) hat (Function.update_self _ _ _)
    (fun _ _ => rfl) rfl rfl rfl (.call hbusy hdue) (Timer.ext rfl rfl rfl hbusy)

/-- The handler is not called. -/
theorem explained_skip [DecidableEq Lock] {l : Lock} (hstage : w.stage (mode c) = .holding c call)
    (hlock : w.locked c = true) (hcancel : (w.exec (mode c)).cancel = true) :
    Explained mode w (w.skip (mode c) c l) := by
  have hat : (w.stage (mode c)).callout = some c := by rw [hstage]; rfl
  have hbusy : (w.timers mode c).busy = true := decide_eq_true hat
  have hdue : (w.timers mode c).due = none :=
    Exec.due_of_cancel (Bool.and_eq_true_iff.mpr ⟨hlock, hcancel⟩) (by simp [hstage])
  exact explained_stage true rfl (fun _ _ => rfl) (fun d hd => Function.update_of_ne hd _ _)
    hat (Function.update_self _ _ _) (fun _ _ => rfl) rfl rfl rfl (.skip hbusy hdue)
    (Timer.ext rfl rfl hdue hbusy)

/-- The executor is done with the callout. -/
theorem explained_finish (hat : w.stage (mode c) = .returned c) :
    Explained mode w (w.finish (mode c) c) := by
  have hcall : (w.stage (mode c)).callout = some c := by rw [hat]; rfl
  have hbusy : (w.timers mode c).busy = true := decide_eq_true hcall
  have hdue : (w.timers mode c).due = none := Exec.due_of_started (by rw [hat]; rfl)
  have hstep : TimerStep (w.locked c) (w.timers mode c) (.leave c (mode c))
      { w.timers mode c with busy := false } := .leave hbusy hdue
  rw [World.finish]
  split
  · exact explained_stage false rfl (fun d hd => Function.update_of_ne hd _ _)
      (fun d hd => Function.update_of_ne hd _ _) hcall (Function.update_self _ _ _)
      (fun _ _ => rfl) rfl rfl rfl hstep (Timer.ext rfl rfl hdue rfl)
  · refine explained_stage false (callouts_wakeWaiting _ _).1 (fun d hd => ?_) (fun d hd => ?_)
      hcall rfl (fun _ _ => Exec.due_of_callout ?_) (callout_wakeWaiting _ _) rfl
      (log_wakeWaiting _ _) hstep (Timer.ext rfl rfl hdue rfl)
    · rw [(exec_wakeWaiting _ hd).1]
      exact Function.update_of_ne hd _ _
    · rw [(exec_wakeWaiting _ hd).2]
    · rw [callout_wakeWaiting]
      exact (Option.some_ne_none c).symm

/-- The scan takes a callout off the wheel. -/
theorem explained_expire {s : Scan Cid} (hpend : (w.callouts c).pending = true)
    (hproc : (w.callouts c).processed = false) (hdue : (w.callouts c).time ≤ s.now) :
    Explained mode w (w.expire cfg s c) := by
  have htouch : Touches c w (w.expire cfg s c) :=
    ⟨fun x hx => Function.update_of_ne hx _ _, fun x d _ => .refl _ _ _⟩
  refine htouch.explained (e := .expire c s.now) rfl rfl ?_
  have htimer : (w.expire cfg s c).timers mode c = { w.timers mode c with expired := true } := by
    simp [timers, World.expire, Callout.timer, hpend]
  have hwait : (w.timers mode c).expired = false := by
    simp [timers, Callout.timer, hproc]
  rw [htimer]
  exact .expire (armed_of_pending hpend) hwait hdue

/-- `softclock` takes a callout of `cc_expireq`. -/
theorem explained_take {q : List Cid} (hpend : (w.callouts c).pending = true)
    (hproc : (w.callouts c).processed = true) (hidle : w.stage d = .idle) (hmode : mode c = d) :
    Explained mode w ({ w with expireq := q }.softclockCallCc c d) := by
  have htouch : Touches c w ({ w with expireq := q }.softclockCallCc c d) :=
    touches_enter rfl rfl rfl hidle
  refine htouch.explained (e := .enter c d) rfl rfl ?_
  have hexp : (w.timers mode c).expired = true := Bool.and_eq_true_iff.mpr ⟨hpend, hproc⟩
  rw [timers_enter hmode]
  exact .enter (armed_of_pending hpend) hexp (busy_of_idle hidle hmode)

/-- The scan calls a direct callout. -/
theorem explained_takeDirect {s : Scan Cid} (hpend : (w.callouts c).pending = true)
    (hproc : (w.callouts c).processed = false) (hdue : (w.callouts c).time ≤ s.now)
    (hidle : w.stage true = .idle) (hmode : mode c = true) :
    Explained mode w (w.takeDirect cfg s c) := by
  have htouch : Touches c w (w.takeDirect cfg s c) := touches_enter rfl rfl rfl hidle
  have htimer : (w.takeDirect cfg s c).timers mode c =
      ⟨none, false, some (w.callouts c).call, true⟩ := by
    rw [takeDirect, timers_enter hmode]
  have hwait : (w.timers mode c).expired = false := by
    simp [timers, Callout.timer, hproc]
  have harmed : (w.timers mode c).armed = _ := armed_of_pending hpend
  have hexp : TimerSpec w.locked (w.timers mode) (.expire c s.now)
      (Function.update (w.timers mode) c { w.timers mode c with expired := true }) :=
    .of_update rfl (.expire harmed hwait hdue)
  have henter : TimerSpec w.locked
      (Function.update (w.timers mode) c { w.timers mode c with expired := true })
      (.enter c true) ((w.takeDirect cfg s c).timers mode) := by
    have hstep : TimerStep (w.locked c) { w.timers mode c with expired := true } (.enter c true)
        ⟨none, false, some (w.callouts c).call, true⟩ :=
      .enter harmed rfl (busy_of_idle hidle hmode)
    rw [htouch.timers, htimer]
    refine ⟨?_, fun x hx => ?_⟩
    · simpa only [Event.callout, Function.update_self] using hstep
    · exact (Function.update_of_ne hx _ _).trans (Function.update_of_ne hx _ _).symm
  exact ⟨[.expire c s.now, .enter c true], List.append_assoc _ _ _,
    (Legal.single hexp).append (.single henter)⟩

/-- `callout_reset_sbt_on` cancels a call. -/
theorem due_cancelCurr (hfit : w.Fit)
    (hx : w.locked c = true → ∀ call, w.stage (mode c) ≠ .committed c call) :
    ((w.cancelCurr c (mode c)).exec (mode c)).due (w.locked c) (w.stage (mode c)) c =
      ((w.timers mode c).cancel (w.locked c)).due := by
  have hd := hfit (mode c)
  simp only [Timer.cancel, cancelCurr, Function.update_self]
  rcases hlock : w.locked c with _ | _
  · have hlock : (w.callouts c).lock.isSome = false := hlock
    simp only [timers, Callout.timer, Exec.due, hlock, Bool.false_and, Bool.false_eq_true, if_false]
  · have hnot := hx hlock
    have hlock : (w.callouts c).lock.isSome = true := hlock
    by_cases hcurr : (w.exec (mode c)).curr = some c
    · exact Exec.due_of_cancel (by simp [hlock, hcurr]) hnot
    · exact Exec.due_of_callout fun hat => hcurr (hd.curr.trans hat)

theorem cancellable_eq (hfit : w.Fit) (mode : Cid → Bool) (c : Cid)
    (hx : w.locked c = true → ∀ call, w.stage (mode c) ≠ .committed c call) :
    (w.timers mode c).cancellable (w.locked c) =
      (decide ((w.exec (mode c)).curr = some c) && (w.callouts c).lock.isSome &&
        !(w.exec (mode c)).cancel) := by
  rcases hlock : w.locked c with _ | _
  · have hlock : (w.callouts c).lock.isSome = false := hlock
    simp [Timer.cancellable, hlock]
  · have hsome := (hfit (mode c)).isSome_due hlock (hx hlock)
    have hlock : (w.callouts c).lock.isSome = true := hlock
    simp only [Timer.cancellable, timers, Callout.timer, hlock, hsome, Bool.true_and, Bool.and_true]

/-- A callout is armed. -/
theorem explained_reset (hfit : w.Fit) (sbt precision : ℕ)
    (hx : w.locked c = true → ∀ call, w.stage (mode c) ≠ .committed c call) :
    Explained mode w (w.calloutReset cfg c sbt precision call (mode c)) := by
  have hframe := frame_calloutReset cfg w c sbt precision call (mode c)
  have hcallouts := callouts_calloutReset cfg w c sbt precision call (mode c)
  have hexec := exec_calloutReset cfg w c sbt precision call (mode c)
  have hlog := log_calloutReset cfg w c sbt precision call (mode c)
  have htouch : Touches c w (w.calloutReset cfg c sbt precision call (mode c)) := by
    refine ⟨fun x hx => ?_, fun x d hx => ?_⟩
    · rw [hcallouts, Function.update_of_ne hx]
    · rw [hexec, hframe.stage]
      refine alike_update_exec ?_ d
      by_cases hcurr : (w.exec (mode c)).curr = some c
      · have hat := (hfit (mode c)).curr.symm.trans hcurr
        have hne : (w.stage (mode c)).callout ≠ some x := by
          rw [hat]
          exact fun heq => hx (Option.some.inj heq).symm
        exact .of_ne hne hne
      · refine .of_cancel ?_
        simp [hcurr]
  refine htouch.explained rfl hlog ?_
  have hlock : (w.resetCallout c sbt precision call (mode c)).lock = (w.callouts c).lock := by
    rw [resetCallout]
    split <;> rfl
  have hdue : ((w.calloutReset cfg c sbt precision call (mode c)).timers mode c).due =
      ((w.timers mode c).cancel (w.locked c)).due := by
    rw [← due_cancelCurr hfit hx, timers, hcallouts, hexec, hframe.stage, Function.update_self,
      Callout.timer, hlock]
    rfl
  have hbusy : ((w.calloutReset cfg c sbt precision call (mode c)).timers mode c).busy =
      (w.timers mode c).busy := by
    rw [timers, hframe.stage]
    rfl
  by_cases hrefuse : (w.exec (mode c)).curr = some c ∧
      ((w.exec (mode c)).waiting = true ∨ (w.exec (mode c)).drain.isSome = true)
  · have hres : w.resetResult c (mode c) = (_, false) := if_pos hrefuse
    have hk : w.resetCallout c sbt precision call (mode c) = w.callouts c := by
      rw [resetCallout, hres]
      rfl
    have hτ : (w.calloutReset cfg c sbt precision call (mode c)).timers mode c =
        (w.timers mode c).cancel (w.locked c) := by
      refine Timer.ext ?_ ?_ hdue hbusy
      · rw [timers, hcallouts, Function.update_self, hk]
        rfl
      · rw [timers, hcallouts, Function.update_self, hk]
        rfl
    rw [hres, hτ, ← cancellable_eq hfit mode c hx]
    exact .refuse (decide_eq_true ((hfit (mode c)).curr.symm.trans hrefuse.1))
  · have hres : w.resetResult c (mode c) = (_, true) := if_neg hrefuse
    have hτ : (w.calloutReset cfg c sbt precision call (mode c)).timers mode c =
        { (w.timers mode c).cancel (w.locked c) with
          armed := some (w.timeFor sbt, call), expired := false } := by
      refine Timer.ext ?_ ?_ hdue hbusy
      · rw [timers, hcallouts, Function.update_self, resetCallout, hres]
        rfl
      · rw [timers, hcallouts, Function.update_self, resetCallout, hres]
        rfl
    rw [hres, hτ, ← cancellable_eq hfit mode c hx, ← isSome_armed w mode c]
    exact .reset

section stop

variable {direct : Bool} {a : Agent Tid}

/-- `_callout_stop_safe` finds the callout at its executor. -/
theorem Orderly.busy_eq (h : Orderly cfg mode w) (hread : direct = (w.callouts c).direct) :
    (w.timers mode c).busy = w.current c direct := by
  rw [Bool.eq_iff_iff]
  constructor
  · intro hbusy
    have hat : (w.stage (mode c)).callout = some c := of_decide_eq_true hbusy
    refine decide_eq_true ?_
    rw [hread, (h.paired.called _ c hat).2]
    exact (h.fit (mode c)).curr.trans hat
  · intro hcurr
    have hat := (h.fit direct).curr.symm.trans (of_decide_eq_true hcurr)
    refine decide_eq_true ?_
    rw [(h.paired.called _ c hat).1]
    exact hat

variable [DecidableEq Tid]

theorem Orderly.stoppable_eq (h : Orderly cfg mode w)
    (hread : direct = (w.callouts c).direct) (hrun : w.isRunning a = true)
    (hcurr : w.current c direct = true) (drain : Option Call) :
    w.stoppable a c direct drain =
      ((w.timers mode c).cancellable (w.useLock a c) && !drain.isSome) := by
  have hat : (w.stage (mode c)).callout = some c :=
    of_decide_eq_true ((h.busy_eq hread).trans hcurr)
  have hdirect : direct = mode c := hread.trans (h.paired.called _ c hat).2
  rcases huse : w.useLock a c with _ | _
  · simp [stoppable, huse, Timer.cancellable]
  · have hlock := locked_of_useLock huse
    have hcurr : (w.exec (mode c)).curr = some c := (h.fit (mode c)).curr.trans hat
    have hcancel := cancellable_eq h.fit mode c fun _ call hx =>
      h.owned.not_holder hrun huse (mode c) (by rw [hx]; rfl)
    rw [hlock, hcurr, show (w.callouts c).lock.isSome = true from hlock] at hcancel
    rw [hcancel, stoppable, huse, hdirect]
    cases drain <;> simp

theorem Orderly.stopResult_eq (h : Orderly cfg mode w)
    (hread : direct = (w.callouts c).direct) (hrun : w.isRunning a = true) (executing : Bool)
    (drain : Option Call) :
    w.stopResult a c direct executing drain =
      (w.timers mode c).stopResult (w.useLock a c) executing drain.isSome := by
  rw [World.stopResult, Timer.stopResult, h.busy_eq hread, isSome_armed]
  by_cases hcurr : w.current c direct = true
  · rw [if_pos hcurr, if_pos hcurr, h.stoppable_eq hread hrun hcurr]
  · rw [if_neg hcurr, if_neg hcurr]

/-- The timer of a callout that is stopped. -/
theorem Orderly.timer_stop (h : Orderly cfg mode w) (hread : direct = (w.callouts c).direct)
    (hrun : w.isRunning a = true) (drain : Option Call) :
    (w.stopCallout c a direct drain).timer
        (Function.update w.exec direct (w.stopExec c a direct drain) (mode c))
        (w.stage (mode c)) c =
      (w.timers mode c).stop (w.useLock a c) drain.isSome := by
  by_cases hstop : w.current c direct = true ∧ w.stoppable a c direct drain = true
  · -- the call is cancelled
    obtain ⟨hcurr, hstop⟩ := hstop
    have hat : (w.stage (mode c)).callout = some c :=
      of_decide_eq_true ((h.busy_eq hread).trans hcurr)
    have huse : w.useLock a c = true := by
      simp only [stoppable, Bool.and_eq_true] at hstop
      exact hstop.1.1
    have hcond : ((w.timers mode c).busy && (w.timers mode c).cancellable (w.useLock a c) &&
        !drain.isSome) = true := by
      rw [Bool.and_assoc, ← h.stoppable_eq hread hrun hcurr, h.busy_eq hread, hcurr, hstop]
      rfl
    have hdue : (w.stopExec c a direct drain).due (w.callouts c).lock.isSome (w.stage (mode c)) c =
        none := by
      refine Exec.due_of_cancel (Bool.and_eq_true_iff.mpr ⟨locked_of_useLock huse, ?_⟩) ?_
      · rw [stopExec, hcurr, hstop]
        exact Bool.or_true _
      · exact fun call hx => h.owned.not_holder hrun huse (mode c) (by rw [hx]; rfl)
    obtain rfl : direct = mode c := hread.trans (h.paired.called _ c hat).2
    rw [Timer.stop, if_pos hcond, Function.update_self]
    refine Timer.ext ?_ ?_ ?_ ?_
    · simp [Callout.timer, stopCallout, hcurr, hstop, Timer.cancel, timers]
    · simp [Callout.timer, stopCallout, hcurr, hstop, Timer.cancel, timers]
    · exact hdue
    · rfl
  · -- the callout is taken off its list
    have hnot : (w.current c direct && w.stoppable a c direct drain) = false :=
      eq_false_of_ne_true fun heq => hstop (Bool.and_eq_true_iff.mp heq)
    have hcond : ¬ ((w.timers mode c).busy && (w.timers mode c).cancellable (w.useLock a c) &&
        !drain.isSome) = true := by
      rw [Bool.and_assoc, Bool.and_eq_true, h.busy_eq hread]
      rintro ⟨hcurr, hstop'⟩
      rw [← h.stoppable_eq hread hrun hcurr] at hstop'
      exact hstop ⟨hcurr, hstop'⟩
    have hcancel : (Function.update w.exec direct (w.stopExec c a direct drain)
        (mode c)).cancel = (w.exec (mode c)).cancel := by
      by_cases hd : mode c = direct
      · rw [hd, Function.update_self, stopExec, hnot, Bool.or_false]
      · rw [Function.update_of_ne hd]
    rw [Timer.stop, if_neg hcond]
    refine Timer.ext ?_ ?_ ?_ rfl
    · simp [Callout.timer, stopCallout, hnot, Timer.disarm]
    · simp [Callout.timer, stopCallout, hnot, Timer.disarm]
    · simp only [Callout.timer, Exec.due, hcancel, Timer.disarm, timers]
      rfl

/-- A callout is stopped. -/
theorem Orderly.explained_stop (h : Orderly cfg mode w)
    (hread : direct = (w.callouts c).direct) (hrun : w.isRunning a = true) (executing : Bool)
    (drain : Option Call) :
    Explained mode w (w.calloutStop cfg a c direct executing drain) := by
  have hframe := frame_calloutStop cfg w c a direct executing drain
  have hcallouts := callouts_calloutStop cfg w c a direct executing drain
  have hexec := exec_calloutStop cfg w c a direct executing drain
  have hlog := log_calloutStop cfg w c a direct executing drain
  have htouch : Touches c w (w.calloutStop cfg a c direct executing drain) := by
    refine ⟨fun x hx => ?_, fun x d hx => ?_⟩
    · rw [hcallouts, Function.update_of_ne hx]
    · rw [hexec, hframe.stage]
      refine alike_update_exec ?_ d
      by_cases hcurr : w.current c direct = true
      · have hat := (h.fit direct).curr.symm.trans (of_decide_eq_true hcurr)
        have hne : (w.stage direct).callout ≠ some x := by
          rw [hat]
          exact fun heq => hx (Option.some.inj heq).symm
        exact .of_ne hne hne
      · refine .of_cancel ?_
        simp [stopExec, hcurr]
  refine htouch.explained rfl hlog ?_
  have hτ : (w.calloutStop cfg a c direct executing drain).timers mode c =
      (w.timers mode c).stop (w.useLock a c) drain.isSome := by
    rw [timers, hcallouts, hexec, hframe.stage, Function.update_self]
    exact h.timer_stop hread hrun drain
  rw [h.stopResult_eq hread hrun, hτ]
  exact .stop locked_of_useLock

end stop

/-- A callout is drained. -/
theorem explained_drain [DecidableEq Tid] {t : Tid} (hat : (w.stage (mode c)).callout ≠ some c)
    (sleepq : Bool → Option Tid) :
    Explained mode w (World.drainDone cfg { w with sleepq := sleepq } t c) := by
  have hbusy : (w.timers mode c).busy = false := decide_eq_false hat
  have hcallouts := callouts_drainDone cfg { w with sleepq := sleepq } c t
  have htouch : Touches c w (World.drainDone cfg { w with sleepq := sleepq } t c) := by
    refine ⟨fun x hx => ?_, fun x d hx => ?_⟩
    · rw [hcallouts, Function.update_of_ne hx]
    · rw [exec_drainDone, stage_drainDone]
      exact .refl _ _ _
  refine htouch.explained rfl (log_drainDone cfg _ c t) ?_
  have hτ : (World.drainDone cfg { w with sleepq := sleepq } t c).timers mode c =
      (w.timers mode c).disarm := by
    rw [timers, hcallouts, exec_drainDone, stage_drainDone, Function.update_self]
    rfl
  have hstep : TimerStep (w.locked c) (w.timers mode c) (.drain c _) _ := .drain hbusy
  rw [isSome_armed] at hstep
  rw [hτ]
  exact hstep

end steps

variable [DecidableEq Lock] [DecidableEq Tid]

/-- **Every step is explained** by the specification of the timers. -/
theorem explained_of_trans {a : Action Cid Lock Call Tid} (h : Orderly cfg mode w)
    (hok : a.Uniform mode w ∧ a.HoldsLock w) (ht : Trans cfg w a w') : Explained mode w w' := by
  have hmode : ∀ {d : Bool} {c : Cid} {x : Stage Cid Call}, w.stage d = x → x.callout = some c →
      d = mode c := fun hx hc => ((h.paired.called _ _ (hx ▸ hc)).1).symm
  cases ht with
  | takeDirect s c hscan hidle htmp hdue hdirect =>
    have hmem := h.linked.tmp_mem hscan (congrArg Stage.engaged hidle) htmp
    obtain ⟨hpend, hproc, -⟩ := (h.linked.lists.mem_callwheel c _).mp hmem
    exact explained_takeDirect hpend hproc hdue hidle
      ((h.paired.pending c hpend).symm.trans hdirect)
  | expire s c hscan hidle htmp hdue hdirect =>
    have hmem := h.linked.tmp_mem hscan (congrArg Stage.engaged hidle) htmp
    obtain ⟨hpend, hproc, -⟩ := (h.linked.lists.mem_callwheel c _).mp hmem
    exact explained_expire hpend hproc hdue
  | softclockTake c q hsoft hidle hfree hq =>
    have hmem : c ∈ w.view.expireq := by
      change c ∈ w.expireq
      rw [hq]
      exact List.mem_cons_self
    obtain ⟨hpend, hproc⟩ := (h.linked.lists.mem_expireq c).mp hmem
    exact explained_take hpend hproc hidle (h.paired.processed c hpend hproc)
  | lockCallout d c call l hstage =>
    refine .silent rfl rfl fun x => alike_update_stage ?_
    rw [hstage]
    exact ⟨fun _ => rfl, Iff.rfl⟩
  | callUnlocked d c call hstage hlock =>
    obtain rfl := hmode hstage rfl
    refine explained_call (by rw [hstage]; rfl) (Exec.due_of_before ?_ ?_)
    · rw [hstage]
      rfl
    · rw [hlock]
      rfl
  | skip d c call l hstage hlock hcancel =>
    obtain rfl := hmode hstage rfl
    exact explained_skip hstage (by rw [locked, hlock]; rfl) hcancel
  | commit d c call l hstage hlock hcancel =>
    refine .silent rfl rfl fun x => alike_update_stage ?_
    rw [hstage]
    refine ⟨fun locked => ?_, Iff.rfl⟩
    simp only [Exec.due, hcancel, Bool.and_false, and_true]
  | callLocked d c call hstage =>
    obtain rfl := hmode hstage rfl
    refine explained_call (by rw [hstage]; rfl) ?_
    simp only [timers, Callout.timer, hstage, Exec.due, if_true]
  | handlerReturns d c call hstage =>
    refine .silent rfl rfl fun x => alike_update_stage ?_
    rw [hstage]
    exact ⟨fun _ => rfl, Iff.rfl⟩
  | finish d c hstage =>
    obtain rfl := hmode hstage rfl
    exact explained_finish hstage
  | drainReturns d f hstage =>
    refine .silent (log_wakeWaiting w d) (callouts_wakeWaiting w d).1 fun x => alike_wakeWaiting ?_
    rw [hstage]
    exact (Option.some_ne_none x).symm
  | wakeup d hstage =>
    refine .silent rfl rfl fun x => alike_update_stage (y := .idle) (.of_ne ?_ ?_)
    · rw [hstage]
      exact (Option.some_ne_none x).symm
    · exact (Option.some_ne_none x).symm
  | reset a c sbt precision call direct hcan =>
    obtain rfl : direct = mode c := hok.1.1 (c, direct) rfl
    refine explained_reset h.fit sbt precision fun hlock call hx => ?_
    have huse : w.useLock a c = true := useLock_of_holdsLock hlock fun l hl =>
      hok.2 (a, c) rfl l hl
    exact h.owned.not_holder (isRunning_of_canCall hcan) huse (mode c) (by rw [hx]; rfl)
  | stopTurn a c direct executing drain hstop hrun =>
    exact h.explained_stop (hok.1.stops _ hstop) hrun executing drain
  | drainDone t c d hpc hfree hcurr =>
    obtain rfl := h.paired.drained t c d (by rw [hpc]; rfl)
    exact explained_drain (fun hat => hcurr ((h.fit (mode c)).curr.trans hat)) w.sleepq
  | drainUnlock t c d hpc hfree hcurr =>
    obtain rfl := h.paired.drained t c d (by rw [hpc]; rfl)
    exact explained_drain (fun hat => hcurr ((h.fit (mode c)).curr.trans hat)) _
  | drainWait t c d =>
    exact .silent rfl rfl fun x => alike_update_exec (.of_cancel rfl)
  | _ => exact .silent rfl rfl fun x d => .refl x _ _

variable {lock : Cid → Option Lock} {returnUnlocked : Cid → Bool} {call : Call}

/-- The log of a run is a run of the timers. -/
theorem legal_of_reach
    (h : Reach (step cfg) (fun w a => a.Uniform mode w ∧ a.HoldsLock w)
      (init lock returnUnlocked call) w) :
    Legal (TimerSpec fun c => (lock c).isSome) (fun _ => .off) w.log (w.timers mode) := by
  have hinv : ∀ w : World Cid Lock Call Tid,
      Reach (step cfg) (fun w a => a.Uniform mode w ∧ a.HoldsLock w)
        (init lock returnUnlocked call) w →
      Orderly cfg mode w ∧ w.locked = fun c => (lock c).isSome := by
    intro w h
    have hord : Orderly cfg mode w := orderly_of_reach (h.mono fun _ _ hok => hok.1)
    refine ⟨hord, h.induct (I := fun w => w.locked = fun c => (lock c).isSome) rfl ?_⟩
    intro v v' a hv _ hs
    exact (locked_of_trans (trans_of_step hs)).trans hv
  refine Reach.legal_of_runs (fun w : World Cid Lock Call Tid => w.log) (timers mode) h hinv
    rfl ?_
  rintro v v' a ⟨hord, hlock⟩ hok hs
  have hex := explained_of_trans hord hok (trans_of_step hs)
  rwa [Explained, hlock] at hex

/-- **Callouts are one-shot timers.** Suppose that callouts are used uniformly, and armed only
with their lock held, if they have one. Then whatever the threads, the handlers and the
interrupts do, in the order in which the sections under `cc_lock` come the callouts are timers:
what the interface functions report, when handlers are called, and with what, is a run of the
specification. It ends with those timers armed whose callouts are pending. -/
theorem legal_timers
    (h : Reach (step cfg) (fun w a => a.Uniform mode w ∧ a.HoldsLock w)
      (init lock returnUnlocked call) w) :
    ∃ τ : Cid → Timer Call,
      Legal (TimerSpec fun c => (lock c).isSome) (fun _ => .off) w.log τ ∧
        ∀ c, (τ c).armed.isSome = (w.callouts c).pending :=
  ⟨w.timers mode, legal_of_reach h, isSome_armed w mode⟩

/-- A callout is stopped while its handler waits for the lock, and its call is skipped. -/
theorem legal_timers_skipped :
    ∃ τ : Fin 1 → Timer Unit, Legal (TimerSpec fun _ => true) (fun _ => .off)
      [.reset 0 5 () false true, .expire 0 20, .enter 0 false, .stop 0 true false false 1,
        .skip 0 false] τ := by
  have hreach : Reach (step (calloutCallwheelInit 0 0 ()))
      (fun w b => b.Uniform (fun _ => false) w ∧ b.HoldsLock w)
      (init (fun _ => some ()) (fun _ => false) () : World (Fin 1) Unit Unit (Fin 1)) _ :=
    reach_of_exec (aboutToCall ++ [.lock (.thread 0) (), .stop (.thread 0) 0 false none,
      .stopTurn (.thread 0), .unlock (.thread 0) (), .lockCallout false, .testCancel false])
      (by decide) rfl
  obtain ⟨τ, hlegal, -⟩ := legal_timers hreach
  exact ⟨τ, hlegal⟩

/-- **Every call was armed for.** Suppose that callouts are used uniformly, and armed only with
their lock held. When a handler is called, the callout was armed before with this function for a
time that has passed, and it was armed more often than its handler was called. -/
theorem earned_of_call {c : Cid} {d : Bool} {f : Call} {l r : List (Event Cid Call)}
    (h : Reach (step cfg) (fun w a => a.Uniform mode w ∧ a.HoldsLock w)
      (init lock returnUnlocked call) w)
    (hlog : w.log = l ++ .call c d f :: r) :
    Earned l c f ∧ l.countP (Event.isCall c) < l.countP (Event.isArm c) := by
  obtain ⟨σ, σ', hlegal, hstep⟩ := (legal_of_reach h).split hlog
  have hrec := recorded_of_legal hlegal c
  have hdue : (σ c).due = some f := TimerStep.due_of_call hstep.1
  refine ⟨hrec.due f hdue, ?_⟩
  have hcount := hrec.count
  rw [hdue, Option.toList_some, List.length_singleton] at hcount
  omega

/-- A callout is called by `softclock` at the time 20; it was armed for 5. -/
theorem earned_of_call_softclock :
    Earned [.reset (0 : Fin 1) 5 () false true, .expire 0 20, .enter 0 false] 0 () := by
  have hreach : Reach (step (calloutCallwheelInit 0 0 ()))
      (fun w b => b.Uniform (fun _ => false) w ∧ b.HoldsLock w)
      (init (fun _ => some ()) (fun _ => false) () : World (Fin 1) Unit Unit (Fin 1)) _ :=
    reach_of_exec (aboutToCall ++ [.lockCallout false, .testCancel false, .call false])
      (by decide) rfl
  exact (earned_of_call (c := 0) (d := false) (r := []) hreach rfl).1

end World

end VosStack.Timeout
