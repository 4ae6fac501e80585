import VosStack.Timeout.Stop

/-!
# Nobody waits in vain

Two places in the callout subsystem wait to be told. A thread in `callout_drain` sleeps, where
`sleepq_wait` does sleep, until the executor has done with the callout, and a callout in
`cc_expireq` stays there until `softclock` runs. Neither is forgotten: an executor with a sleeping
thread has still to wake it, and as long as `cc_expireq` is not empty `softclock` runs or is going
to be scheduled.
-/

namespace VosStack.Timeout

section pc

variable {Cid : Type*}

/-- The thread holds the lock of the sleep queue. -/
def Pc.holdsQueue : Pc Cid → Option Bool
  | .locked _ d => some d
  | .adding _ d => some d
  | _ => none

/-- The thread sleeps or is going to sleep. -/
def Pc.sleeps : Pc Cid → Option Bool
  | .adding _ d => some d
  | .asleep _ d => some d
  | _ => none

theorem Pc.holdsQueue_woken (direct : Bool) (pc : Pc Cid) :
    (pc.woken direct).holdsQueue = pc.holdsQueue := by
  cases pc with
  | asleep c d =>
    rw [Pc.woken]
    split <;> rfl
  | _ => rfl

theorem Pc.sleeps_of_woken {direct d : Bool} {pc : Pc Cid}
    (h : (pc.woken direct).sleeps = some d) : pc.sleeps = some d := by
  cases pc with
  | asleep c x =>
    rw [Pc.woken] at h
    split at h
    · exact absurd h (Option.some_ne_none d).symm
    · exact h
  | _ => exact h

/-- Of those that wait for the executor only the ones that are about to sleep are not woken. -/
theorem Pc.holdsQueue_of_sleeps_woken {d : Bool} {pc : Pc Cid}
    (h : (pc.woken d).sleeps = some d) : pc.holdsQueue = some d := by
  cases pc with
  | asleep c x =>
    rw [Pc.woken] at h
    split at h
    · exact absurd h (Option.some_ne_none d).symm
    · next hx => exact absurd (Option.some.inj h) hx
  | adding c x => exact h
  | _ => exact absurd h (Option.some_ne_none d).symm

/-- The handler has returned, or was not called. -/
def Stage.over {Call : Type*} : Stage Cid Call → Bool
  | .entered _ _ => false
  | .holding _ _ => false
  | .committed _ _ => false
  | .running _ _ => false
  | _ => true

/-- The action is one by which an executor ends its turn; its drain function may have to end a
`callout_stop` first. -/
def Action.ends {Lock Call Tid : Type*} (d : Bool) (a : Action Cid Lock Call Tid) : Prop :=
  a = .finish d ∨ a = .stopTurn (.handler d) ∨ a = .drainReturns d ∨ a = .wakeup d

end pc

namespace World

variable {Cid Lock Call Tid : Type*}
variable {cfg : Setup Lock} {w w' : World Cid Lock Call Tid}

/-! ### Threads that drain -/

/-- Threads that hold the lock of a sleep queue are known to it, and those that sleep are known
to the executor. -/
structure AwaitedBy (exec : Bool → Exec Cid Call) (stage : Bool → Stage Cid Call)
    (sleepq : Bool → Option Tid) (thread : Tid → Pc Cid) : Prop where
  queue : ∀ t d, (thread t).holdsQueue = some d → sleepq d = some t
  sleeper : ∀ t d, (thread t).sleeps = some d → (exec d).waiting = true ∨ stage d = .waking

/-- Nobody waits in vain. -/
def Awaited (w : World Cid Lock Call Tid) : Prop :=
  AwaitedBy w.exec w.stage w.sleepq w.thread

section awaited

variable {exec exec' : Bool → Exec Cid Call} {stage : Bool → Stage Cid Call}
variable {sleepq sleepq' : Bool → Option Tid} {thread : Tid → Pc Cid} {d : Bool}
variable {x : Stage Cid Call} {t : Tid} {pc : Pc Cid}

/-- An executor that is not waking anybody goes on, and keeps in mind who waits. -/
theorem AwaitedBy.setStage (h : AwaitedBy exec stage sleepq thread) (hne : stage d ≠ .waking)
    (hexec : ∀ d, (exec' d).waiting = (exec d).waiting) :
    AwaitedBy exec' (Function.update stage d x) sleepq thread where
  queue := h.queue
  sleeper := by
    intro t d' ht
    rw [hexec]
    by_cases hd : d' = d
    · refine .inl ((h.sleeper t d' ht).resolve_right ?_)
      rw [hd]
      exact hne
    · rw [Function.update_of_ne hd]
      exact h.sleeper t d' ht

theorem AwaitedBy.setExec (h : AwaitedBy exec stage sleepq thread)
    (hexec : ∀ d, (exec d).waiting = true → (exec' d).waiting = true) :
    AwaitedBy exec' stage sleepq thread where
  queue := h.queue
  sleeper := fun t d ht => (h.sleeper t d ht).imp_left (hexec d)

/-- A thread goes on. -/
theorem AwaitedBy.setThread [DecidableEq Tid] (h : AwaitedBy exec stage sleepq thread)
    (hqueue : ∀ d, pc.holdsQueue = some d → sleepq' d = some t)
    (hother : ∀ d t', t' ≠ t → sleepq d = some t' → sleepq' d = some t')
    (hsleep : ∀ d, pc.sleeps = some d → (exec d).waiting = true ∨ stage d = .waking) :
    AwaitedBy exec stage sleepq' (Function.update thread t pc) where
  queue := by
    intro t' d ht
    by_cases heq : t' = t
    · rw [heq, Function.update_self] at ht
      rw [heq]
      exact hqueue d ht
    · rw [Function.update_of_ne heq] at ht
      exact hother d t' heq (h.queue t' d ht)
  sleeper := by
    intro t' d ht
    by_cases heq : t' = t
    · rw [heq, Function.update_self] at ht
      exact hsleep d ht
    · rw [Function.update_of_ne heq] at ht
      exact h.sleeper t' d ht

/-- A thread goes on that neither holds the lock of a queue nor sleeps afterwards. -/
theorem AwaitedBy.setOther [DecidableEq Tid] (h : AwaitedBy exec stage sleepq thread)
    (hqueue : pc.holdsQueue = none) (hsleep : pc.sleeps = none)
    (hother : ∀ d t', t' ≠ t → sleepq d = some t' → sleepq' d = some t') :
    AwaitedBy exec stage sleepq' (Function.update thread t pc) := by
  refine h.setThread (fun d hd => ?_) hother fun d hd => ?_
  · exact absurd (hqueue.symm.trans hd) (Option.some_ne_none d).symm
  · exact absurd (hsleep.symm.trans hd) (Option.some_ne_none d).symm

/-- An executor wakes the threads that wait for it, or there are none. -/
theorem AwaitedBy.wakeWaiting (h : AwaitedBy w.exec stage sleepq thread)
    (hstage : ∀ d', d' ≠ d → w.stage d' = stage d') (hne : stage d ≠ .waking) :
    AwaitedBy (w.wakeWaiting d).exec (w.wakeWaiting d).stage sleepq thread := by
  refine ⟨h.queue, fun t d' ht => ?_⟩
  rw [World.wakeWaiting]
  split
  · by_cases hd : d' = d
    · exact .inr (hd ▸ Function.update_self _ _ _)
    · refine (h.sleeper t d' ht).imp (fun hw => ?_) fun hw => ?_
      · simpa only [Function.update_of_ne hd] using hw
      · simpa only [Function.update_of_ne hd, hstage d' hd] using hw
  · next hwait =>
    by_cases hd : d' = d
    · refine absurd ((h.sleeper t d' ht).resolve_right ?_) (hd ▸ hwait)
      rw [hd]
      exact hne
    · refine (h.sleeper t d' ht).imp id fun hw => ?_
      simpa only [retire, Function.update_of_ne hd, hstage d' hd] using hw

/-- The threads that sleep are woken; none is about to sleep, as the queue is not locked. -/
theorem AwaitedBy.wakeup (h : w.Awaited) (hq : w.sleepq d = none) : (w.wakeup d).Awaited where
  queue := by
    intro t d' ht
    have ht : ((w.thread t).woken d).holdsQueue = some d' := ht
    rw [Pc.holdsQueue_woken] at ht
    exact h.queue t d' ht
  sleeper := by
    intro t d' ht
    have ht : ((w.thread t).woken d).sleeps = some d' := ht
    have hne : d' ≠ d := by
      rintro rfl
      have hown := h.queue t d' (Pc.holdsQueue_of_sleeps_woken ht)
      exact Option.some_ne_none t (hown.symm.trans hq)
    refine (h.sleeper t d' (Pc.sleeps_of_woken ht)).imp id fun hw => ?_
    exact (Function.update_of_ne hne _ _).trans hw

end awaited

theorem sleepq_wakeWaiting (w : World Cid Lock Call Tid) (d : Bool) :
    (w.wakeWaiting d).sleepq = w.sleepq := by
  rw [World.wakeWaiting]
  split <;> rfl

theorem thread_wakeWaiting (w : World Cid Lock Call Tid) (d : Bool) :
    (w.wakeWaiting d).thread = w.thread := by
  rw [World.wakeWaiting]
  split <;> rfl

theorem waiting_update {exec : Bool → Exec Cid Call} {d : Bool} {e : Exec Cid Call}
    (h : e.waiting = (exec d).waiting) (d' : Bool) :
    (Function.update exec d e d').waiting = (exec d').waiting := by
  by_cases hd : d' = d
  · rw [hd, Function.update_self, h]
  · rw [Function.update_of_ne hd]

/-- A lock of a sleep queue is released by its owner. -/
theorem sleepq_release {sleepq : Bool → Option Tid} {d : Bool} {t : Tid} (h : sleepq d = some t)
    (d' : Bool) (t' : Tid) (ht : t' ≠ t) (hd : sleepq d' = some t') :
    Function.update sleepq d none d' = some t' := by
  by_cases heq : d' = d
  · rw [heq, h] at hd
    exact absurd (Option.some.inj hd).symm ht
  · rwa [Function.update_of_ne heq]

open Transition

variable {lock : Cid → Option Lock} {returnUnlocked : Cid → Bool} {call : Call}
variable {t : Tid} {c : Cid} {d : Bool}

section drain

variable [DecidableEq Cid] [DecidableEq Lock] [DecidableEq Tid]

/-- Nobody waits in vain after a step. -/
theorem awaited_of_trans {a : Action Cid Lock Call Tid} (h : w.Awaited)
    (ht : Trans cfg w a w') : w'.Awaited := by
  cases ht with
  | takeDirect s c hscan hidle =>
    exact AwaitedBy.setStage h (by simp [hidle]) (waiting_update rfl)
  | softclockTake c q hsoft hidle =>
    exact AwaitedBy.setStage h (by simp [hidle]) (waiting_update rfl)
  | lockCallout d c call l hstage =>
    exact AwaitedBy.setStage h (by simp [hstage]) fun _ => rfl
  | callUnlocked d c call hstage =>
    exact AwaitedBy.setStage h (by simp [hstage]) (waiting_update rfl)
  | skip d c call l hstage =>
    exact AwaitedBy.setStage h (by simp [hstage]) fun _ => rfl
  | commit d c call l hstage =>
    exact AwaitedBy.setStage h (by simp [hstage]) fun _ => rfl
  | callLocked d c call hstage =>
    exact AwaitedBy.setStage h (by simp [hstage]) (waiting_update rfl)
  | handlerReturns d c call hstage =>
    exact AwaitedBy.setStage h (by simp [hstage]) fun _ => rfl
  | finish d c hstage =>
    have hne : w.stage d ≠ .waking := by simp [hstage]
    rw [Awaited, World.finish]
    split
    · exact AwaitedBy.setStage h hne (waiting_update rfl)
    · rw [sleepq_wakeWaiting, thread_wakeWaiting]
      have hexec : AwaitedBy (Function.update w.exec d
          { w.exec d with curr := none, drain := none }) w.stage w.sleepq w.thread :=
        AwaitedBy.setExec h fun d' hd' => (waiting_update (by rfl) d').trans hd'
      exact AwaitedBy.wakeWaiting hexec (fun _ _ => rfl) hne
  | drainReturns d f hstage =>
    rw [Awaited, sleepq_wakeWaiting, thread_wakeWaiting]
    exact AwaitedBy.wakeWaiting h (fun _ _ => rfl) (by simp [hstage])
  | wakeup d hstage hq => exact AwaitedBy.wakeup h hq
  | reset a c sbt precision call direct =>
    have hframe := frame_calloutReset cfg w c sbt precision call direct
    rw [Awaited, exec_calloutReset, hframe.stage, hframe.sleepq, hframe.thread]
    exact AwaitedBy.setExec h fun d hd => (waiting_update (by rfl) d).trans hd
  | stopTurn a c direct executing drain =>
    have hframe := frame_calloutStop cfg w c a direct executing drain
    rw [Awaited, exec_calloutStop, hframe.stage, hframe.sleepq, hframe.thread]
    exact AwaitedBy.setExec h fun d hd => (waiting_update (by rfl) d).trans hd
  | drain t c hpc => exact AwaitedBy.setOther h rfl rfl fun _ _ _ => id
  | drainBusy t c d hpc => exact AwaitedBy.setOther h rfl rfl fun _ _ _ => id
  | drainAwake t c d hpc => exact AwaitedBy.setOther h rfl rfl fun _ _ _ => id
  | drainDone t c d hpc =>
    rw [Awaited, exec_drainDone, stage_drainDone, sleepq_drainDone, thread_drainDone]
    exact AwaitedBy.setOther h rfl rfl fun _ _ _ => id
  | drainLock t c d hpc hq =>
    refine AwaitedBy.setThread h (fun d' hd' => ?_) (fun d' t' _ hd' => ?_) fun d' hd' => ?_
    · obtain rfl := Option.some.inj hd'
      exact Function.update_self _ _ _
    · have hne : d' ≠ d := fun heq => by
        rw [heq, hq] at hd'
        exact Option.some_ne_none t' hd'.symm
      exact (Function.update_of_ne hne _ _).trans hd'
    · exact absurd hd' (Option.some_ne_none d').symm
  | drainWait t c d hpc =>
    have hown : w.sleepq d = some t := h.queue t d (by rw [hpc]; rfl)
    refine AwaitedBy.setThread (AwaitedBy.setExec h fun d' hd' => ?_) (fun d' hd' => ?_)
      (fun _ _ _ => id) fun d' hd' => .inl ?_
    · dsimp only
      by_cases heq : d' = d
      · rw [heq, Function.update_self]
      · rwa [Function.update_of_ne heq]
    · obtain rfl := Option.some.inj hd'
      exact hown
    · obtain rfl := Option.some.inj hd'
      simp only [Function.update_self]
  | drainUnlock t c d hpc =>
    have hown : w.sleepq d = some t := h.queue t d (by rw [hpc]; rfl)
    rw [Awaited, exec_drainDone, stage_drainDone, sleepq_drainDone, thread_drainDone]
    exact AwaitedBy.setOther h rfl rfl (sleepq_release hown)
  | drainSleep t c d hpc =>
    have hown : w.sleepq d = some t := h.queue t d (by rw [hpc]; rfl)
    refine AwaitedBy.setThread h (fun d' hd' => ?_) (sleepq_release hown) fun d' hd' => ?_
    · exact absurd hd' (Option.some_ne_none d').symm
    · obtain rfl := Option.some.inj hd'
      exact h.sleeper t d (by rw [hpc]; rfl)
  | _ => exact h

theorem awaited_of_reach (h : Reachable (step cfg) (init lock returnUnlocked call) w) :
    w.Awaited ∧ w.Fit := by
  have hinit : (init lock returnUnlocked call : World Cid Lock Call Tid).Awaited :=
    ⟨fun t d ht => absurd ht (Option.some_ne_none d).symm,
      fun t d ht => absurd ht (Option.some_ne_none d).symm⟩
  refine h.induct (I := fun w => w.Awaited ∧ w.Fit) ⟨hinit, fit_init⟩ ?_
  intro v v' a hv _ hs
  have ht := trans_of_step hs
  exact ⟨awaited_of_trans hv.1 ht, fit_of_trans hv.2 ht⟩

/-- The thread is woken by the executor alone. -/
def Wakes (cfg : Setup Lock) (w : World Cid Lock Call Tid) (t : Tid) (c : Cid) (d : Bool) : Prop :=
  ∃ w', Reach (step cfg) (fun _ a => a.ends d) w w' ∧ w'.thread t = .again c d

theorem Wakes.head {a : Action Cid Lock Call Tid} (ha : a.ends d) (hs : w.step cfg a = some w')
    (h : Wakes cfg w' t c d) : Wakes cfg w t c d := by
  obtain ⟨v, hrun, hv⟩ := h
  exact ⟨v, Reach.head ha hs hrun, hv⟩

theorem wakes_of_waking (hstage : w.stage d = .waking) (hq : w.sleepq d = none)
    (hpc : w.thread t = .asleep c d) : Wakes cfg w t c d := by
  have hs : w.step cfg (.wakeup d) = some (w.wakeup d) := by
    simp only [step, hstage, if_pos hq]
  refine Wakes.head (.inr (.inr (.inr rfl))) hs ⟨_, .refl, ?_⟩
  simp only [World.wakeup, retire, hpc, Pc.woken, if_true]

theorem wakes_of_wakeWaiting (hwait : (w.exec d).waiting = true) (hq : w.sleepq d = none)
    (hpc : w.thread t = .asleep c d) : Wakes cfg (w.wakeWaiting d) t c d := by
  refine wakes_of_waking ?_ ?_ ?_
  · rw [World.wakeWaiting, if_pos hwait]
    exact Function.update_self _ _ _
  · rwa [sleepq_wakeWaiting]
  · rwa [thread_wakeWaiting]

theorem wakes_of_drainReturns {f : Call} (hstage : w.stage d = .draining f)
    (hstop : w.stopping (.handler d) = none) (hfree : w.free = true)
    (hwait : (w.exec d).waiting = true) (hq : w.sleepq d = none)
    (hpc : w.thread t = .asleep c d) : Wakes cfg w t c d := by
  have hs : w.step cfg (.drainReturns d) = some (w.wakeWaiting d) := by
    simp [step, hstage, hfree, hstop]
  exact Wakes.head (.inr (.inr (.inl rfl))) hs (wakes_of_wakeWaiting hwait hq hpc)

theorem wakes_of_draining {f : Call} (hstage : w.stage d = .draining f) (hfree : w.free = true)
    (hwait : (w.exec d).waiting = true) (hq : w.sleepq d = none)
    (hpc : w.thread t = .asleep c d) : Wakes cfg w t c d := by
  cases hstop : w.stopping (.handler d) with
  | none => exact wakes_of_drainReturns hstage hstop hfree hwait hq hpc
  | some s =>
    have hrun : w.isRunning (.handler d) = true := by rw [isRunning, hstage]
    have hs : w.step cfg (.stopTurn (.handler d)) =
        some (w.calloutStop cfg (.handler d) s.c s.direct s.executing s.drain) := by
      simp [step, hstop, hrun, hfree]
    have hframe := frame_calloutStop cfg w s.c (.handler d) s.direct s.executing s.drain
    refine Wakes.head (.inr (.inl rfl)) hs (wakes_of_drainReturns (f := f) ?_ ?_ ?_ ?_ ?_ ?_)
    · rw [hframe.stage, hstage]
    · exact stopping_calloutStop ..
    · rw [free, hframe.scan, hframe.stage]
      exact hfree
    · rw [exec_calloutStop]
      exact (waiting_update (by rfl) d).trans hwait
    · rw [hframe.sleepq, hq]
    · rw [hframe.thread, hpc]

theorem wakes_of_returned {x : Cid} (hstage : w.stage d = .returned x) (hfree : w.free = true)
    (hwait : (w.exec d).waiting = true) (hq : w.sleepq d = none)
    (hpc : w.thread t = .asleep c d) : Wakes cfg w t c d := by
  have hs : w.step cfg (.finish d) = some (w.finish d x) := by
    simp only [step, hstage, if_pos hfree]
  refine Wakes.head (.inl rfl) hs ?_
  rw [World.finish]
  split
  · next f _ =>
    refine wakes_of_draining (f := f) ?_ ?_ ?_ hq hpc
    · exact Function.update_self _ _ _
    · rw [free, Bool.or_eq_true] at hfree ⊢
      refine hfree.imp id fun heng => ?_
      by_cases hd : true = d
      · simp only [← hd, Function.update_self]
        rfl
      · simpa only [Function.update_of_ne hd] using heng
    · simpa only [Function.update_self] using hwait
  · refine wakes_of_wakeWaiting ?_ hq hpc
    simpa only [Function.update_self] using hwait

/-- **No wake-up is lost.** A thread that sleeps in `callout_drain` sleeps at an executor that is
in `softclock_call_cc`, and if its handler has returned, and `cc_lock` and the lock of the sleep
queue are free, the executor alone wakes the thread. -/
theorem wakes_of_asleep (h : Reachable (step cfg) (init lock returnUnlocked call) w)
    (hpc : w.thread t = .asleep c d) :
    (w.stage d).engaged = true ∧
      ((w.stage d).over = true → w.free = true → w.sleepq d = none → Wakes cfg w t c d) := by
  obtain ⟨haw, hfit⟩ := awaited_of_reach h
  have hsleep := haw.sleeper t d (by rw [hpc]; rfl)
  have hwait : w.stage d ≠ .waking → (w.exec d).waiting = true := hsleep.resolve_right
  have hawaited : w.stage d ≠ .waking → (w.stage d).awaited = true := fun hne =>
    (hfit d).waiting (hwait hne)
  generalize hstage : w.stage d = x at *
  cases x with
  | idle => exact absurd (hawaited (by simp)) Bool.false_ne_true
  | entered x call => exact ⟨rfl, fun hover => absurd hover Bool.false_ne_true⟩
  | holding x call => exact ⟨rfl, fun hover => absurd hover Bool.false_ne_true⟩
  | committed x call => exact ⟨rfl, fun hover => absurd hover Bool.false_ne_true⟩
  | running x call => exact ⟨rfl, fun hover => absurd hover Bool.false_ne_true⟩
  | returned x =>
    exact ⟨rfl, fun _ hfree hq => wakes_of_returned hstage hfree (hwait (by simp)) hq hpc⟩
  | draining f =>
    exact ⟨rfl, fun _ hfree hq => wakes_of_draining hstage hfree (hwait (by simp)) hq hpc⟩
  | waking => exact ⟨rfl, fun _ _ hq => wakes_of_waking hstage hq hpc⟩

/-- A thread sleeps until the handler of the callout, which it drains meanwhile, has returned. -/
theorem wakes_of_asleep_returned :
    ∃ w : World (Fin 1) Unit Unit (Fin 1), w.stage false = .returned 0 ∧
      Wakes (calloutCallwheelInit 0 0 ()) w 0 0 false := by
  have hreach : Reachable (step (calloutCallwheelInit 0 0 ()))
      (init (fun _ => some ()) (fun _ => false) () : World (Fin 1) Unit Unit (Fin 1)) _ :=
    reachable_of_exec (aboutToCall ++ [.drain 0 0] ++ List.replicate 4 (.drainTurn 0) ++
      [.lockCallout false, .testCancel false, .call false, .handlerReturns false]) rfl
  have hwakes := (wakes_of_asleep (t := 0) (c := 0) (d := false) hreach rfl).2
  exact ⟨_, rfl, hwakes rfl rfl rfl⟩

end drain

/-! ### Callouts that have expired -/

/-- As long as callouts have expired `softclock` runs, is scheduled, or is going to be. -/
def Scheduled (w : World Cid Lock Call Tid) : Prop :=
  w.expireq = [] ∨ w.scan ≠ none ∨ w.scanned = true ∨ w.swi = true ∨ w.softclock = true

theorem Scheduled.frame (h : w.Scheduled) (hq : w.expireq = [] → w'.expireq = [])
    (hframe : Frame w w') : w'.Scheduled := by
  rw [Scheduled, hframe.scan, hframe.scanned, hframe.swi, hframe.softclock]
  exact h.imp_left hq

/-- The clock interrupt goes on with its scan, if there is one, when an executor is done. -/
theorem Scheduled.retire (h : w.Scheduled) (d : Bool) : (w.retire d).Scheduled := by
  refine h.imp id (Or.imp_left fun hscan => ?_)
  simp only [World.retire]
  split
  · simpa only [ne_eq, Option.map_eq_none_iff] using hscan
  · exact hscan

theorem Scheduled.wakeWaiting (h : w.Scheduled) (d : Bool) : (w.wakeWaiting d).Scheduled := by
  rw [World.wakeWaiting]
  split
  · exact h
  · exact h.retire d

variable [DecidableEq Cid]

theorem expireq_dequeueIf (c : Cid) (h : w.expireq = []) : (w.dequeueIf cfg c).expireq = [] := by
  rw [dequeueIf]
  split
  · simp only [dequeue, h, List.erase_nil, ite_self]
  · exact h

theorem expireq_calloutReset (c : Cid) (sbt precision : ℕ) (call : Call) (direct : Bool)
    (h : w.expireq = []) : (w.calloutReset cfg c sbt precision call direct).expireq = [] := by
  rw [calloutReset]
  split
  · rw [calloutCcAdd, informTimer]
    split <;> exact expireq_dequeueIf c h
  · exact h

theorem expireq_calloutStop [DecidableEq Tid] (a : Agent Tid) (c : Cid) (direct executing : Bool)
    (drain : Option Call) (h : w.expireq = []) :
    (w.calloutStop cfg a c direct executing drain).expireq = [] := by
  rw [calloutStop]
  split
  · exact h
  · exact expireq_dequeueIf c h

variable [DecidableEq Lock] [DecidableEq Tid]

/-- Expired callouts are taken care of after a step. -/
theorem scheduled_of_trans {a : Action Cid Lock Call Tid} (h : w.Scheduled)
    (ht : Trans cfg w a w') : w'.Scheduled := by
  cases ht with
  | tickScan => exact .inr (.inl (Option.some_ne_none _))
  | nextBucket => exact .inr (.inl (Option.some_ne_none _))
  | scanDone => exact .inr (.inr (.inl rfl))
  | takeDirect s c hscan => exact .inr (.inl (hscan ▸ Option.some_ne_none s))
  | expire => exact .inr (.inl (Option.some_ne_none _))
  | lookAt => exact .inr (.inl (Option.some_ne_none _))
  | swiSched =>
    by_cases hq : w.expireq.isEmpty = true
    · exact .inl (List.isEmpty_iff.mp hq)
    · refine .inr (.inr (.inr (.inl ?_)))
      simp only [eq_false_of_ne_true hq, Bool.not_false, Bool.or_true]
  | softclockStart => exact .inr (.inr (.inr (.inr rfl)))
  | softclockEnd hsoft hidle hq => exact .inl hq
  | softclockTake c q hsoft => exact .inr (.inr (.inr (.inr hsoft)))
  | finish d c =>
    rw [World.finish]
    split
    · exact h
    · refine Scheduled.wakeWaiting ?_ d
      exact h
  | drainReturns d => exact h.wakeWaiting d
  | wakeup d => exact Scheduled.retire h d
  | reset a c sbt precision call direct =>
    exact h.frame (expireq_calloutReset c sbt precision call direct)
      (frame_calloutReset cfg w c sbt precision call direct)
  | stopTurn a c direct executing drain =>
    exact h.frame (expireq_calloutStop a c direct executing drain)
      (frame_calloutStop cfg w c a direct executing drain)
  | drainDone t c =>
    refine Scheduled.frame ?_ (expireq_dequeueIf c) (frame_dequeueIf cfg _ c)
    exact h
  | drainUnlock t c d =>
    refine Scheduled.frame ?_ (expireq_dequeueIf c) (frame_dequeueIf cfg _ c)
    exact h
  | _ => exact h

theorem scheduled_of_reach (h : Reachable (step cfg) (init lock returnUnlocked call) w) :
    w.Scheduled :=
  h.induct (I := Scheduled) (.inl rfl) fun _ _ _ hv _ hs => scheduled_of_trans hv (trans_of_step hs)

/-- The interrupts take the callout. -/
def Enters (cfg : Setup Lock) (w : World Cid Lock Call Tid) (c : Cid) : Prop :=
  ∃ w', Reach (step cfg) (fun _ a => a = .swiSched ∨ a = .softclock) w w' ∧
    w'.stage false = .entered c (w.callouts c).call

theorem enters_of_softclock {q : List Cid} (hq : w.expireq = c :: q) (hscan : w.scan = none)
    (hidle : w.stage false = .idle) (hsoft : w.softclock = true) : Enters cfg w c := by
  have hfree : w.free = true := by rw [free, hscan]; rfl
  have hs : w.step cfg .softclock = some ({ w with expireq := q }.softclockCallCc c false) := by
    simp only [step, if_pos hsoft, hidle, if_pos hfree, softclockTurn, hq]
  refine ⟨_, Reach.head (.inr rfl) hs .refl, ?_⟩
  simp only [softclockCallCc, Function.update_self]

theorem enters_of_swi {q : List Cid} (hq : w.expireq = c :: q) (hscan : w.scan = none)
    (hidle : w.stage false = .idle) (hswi : w.swi = true) : Enters cfg w c := by
  rcases hsoft : w.softclock with _ | _
  · have hs : w.step cfg .softclock = some { w with swi := false, softclock := true } := by
      simp only [step, hsoft, hswi, Bool.false_eq_true, if_false, if_true]
    have henters : Enters cfg { w with swi := false, softclock := true } c :=
      enters_of_softclock hq hscan hidle rfl
    obtain ⟨v, hrun, hv⟩ := henters
    exact ⟨v, Reach.head (.inr rfl) hs hrun, hv⟩
  · exact enters_of_softclock hq hscan hidle hsoft

/-- **No expired callout is left behind.** Whatever has happened, when the clock interrupt is not
scanning and `softclock` is at no callout, the first callout of `cc_expireq` is taken by
`softclock` after steps of the interrupts alone. -/
theorem enters_of_expired (h : Reachable (step cfg) (init lock returnUnlocked call) w)
    {q : List Cid} (hq : w.expireq = c :: q) (hscan : w.scan = none)
    (hidle : w.stage false = .idle) : Enters cfg w c := by
  rcases scheduled_of_reach h with hnil | hsome | hscanned | hswi | hsoft
  · rw [hq] at hnil
    exact absurd hnil (List.cons_ne_nil c q)
  · exact absurd hscan hsome
  · have hs : w.step cfg .swiSched =
        some { w with scanned := false, swi := w.swi || !w.expireq.isEmpty } := by
      simp only [step, if_pos hscanned]
    have hswi : (w.swi || !w.expireq.isEmpty) = true := by
      rw [hq, List.isEmpty_cons, Bool.not_false, Bool.or_true]
    have henters : Enters cfg
        { w with scanned := false, swi := w.swi || !w.expireq.isEmpty } c :=
      enters_of_swi hq hscan hidle hswi
    obtain ⟨v, hrun, hv⟩ := henters
    exact ⟨v, Reach.head (.inl rfl) hs hrun, hv⟩
  · exact enters_of_swi hq hscan hidle hswi
  · exact enters_of_softclock hq hscan hidle hsoft

/-- The scan has put a callout into `cc_expireq` and has not yet scheduled `softclock`. -/
theorem enters_of_expired_scanned :
    ∃ w : World (Fin 1) Unit Unit (Fin 1), w.swi = false ∧ w.softclock = false ∧
      Enters (calloutCallwheelInit 0 0 ()) w 0 := by
  have hreach : Reachable (step (calloutCallwheelInit 0 0 ()))
      (init (fun _ => some ()) (fun _ => false) () : World (Fin 1) Unit Unit (Fin 1)) _ :=
    reachable_of_exec ([.configtimer 0 10, .reset (.thread 0) 0 5 0 () false, .tick 20] ++
      List.replicate 17 .scan) rfl
  have henters := enters_of_expired (c := 0) (q := []) hreach rfl rfl rfl
  exact ⟨_, rfl, rfl, henters⟩

end World

end VosStack.Timeout
