import VosStack.Timeout.Transitions

/-!
# What the interface functions leave alone

`callout_reset_sbt_on`, `_callout_stop_safe` and the end of `callout_drain` change one callout,
the lists, and some flags of one executor. A `Frame` is what they leave as it is; the other
lemmas give the new value of each field that the executors and the threads depend on.
-/

namespace VosStack.Timeout.World

variable {Cid Lock Call Tid : Type*}
variable (cfg : Setup Lock) (w : World Cid Lock Call Tid) (c : Cid)

/-- What a change of the lists leaves as it is. -/
structure Frame (w w' : World Cid Lock Call Tid) : Prop where
  stage : w'.stage = w.stage
  owner : w'.owner = w.owner
  sleepq : w'.sleepq = w.sleepq
  thread : w'.thread = w.thread
  lastscan : w'.lastscan = w.lastscan
  scan : w'.scan = w.scan
  scanned : w'.scanned = w.scanned
  swi : w'.swi = w.swi
  softclock : w'.softclock = w.softclock

theorem Frame.trans {w₁ w₂ w₃ : World Cid Lock Call Tid} (h : Frame w₁ w₂) (h' : Frame w₂ w₃) :
    Frame w₁ w₃ where
  stage := h'.stage.trans h.stage
  owner := h'.owner.trans h.owner
  sleepq := h'.sleepq.trans h.sleepq
  thread := h'.thread.trans h.thread
  lastscan := h'.lastscan.trans h.lastscan
  scan := h'.scan.trans h.scan
  scanned := h'.scanned.trans h.scanned
  swi := h'.swi.trans h.swi
  softclock := h'.softclock.trans h.softclock

variable [DecidableEq Cid]

/-! ### Taking a callout off its list -/

theorem frame_dequeueIf : Frame w (w.dequeueIf cfg c) := by
  rw [dequeueIf]
  split <;> exact ⟨rfl, rfl, rfl, rfl, rfl, rfl, rfl, rfl, rfl⟩

theorem timeFor_dequeueIf (sbt : ℕ) : (w.dequeueIf cfg c).timeFor sbt = w.timeFor sbt :=
  congrArg (max sbt) (frame_dequeueIf cfg w c).lastscan

theorem exec_dequeueIf : (w.dequeueIf cfg c).exec = w.exec := by
  rw [dequeueIf]
  split <;> rfl

theorem stopping_dequeueIf : (w.dequeueIf cfg c).stopping = w.stopping := by
  rw [dequeueIf]
  split <;> rfl

theorem log_dequeueIf : (w.dequeueIf cfg c).log = w.log := by
  rw [dequeueIf]
  split <;> rfl

theorem callouts_dequeueIf :
    (w.dequeueIf cfg c).callouts = Function.update w.callouts c
      { w.callouts c with
        pending := false
        active := (w.callouts c).active && !(w.callouts c).pending } := by
  rw [dequeueIf]
  split
  · next hpend => simp only [dequeue, hpend, Bool.not_true, Bool.and_false]
  · next hpend =>
    have hpend : (w.callouts c).pending = false := eq_false_of_ne_true hpend
    have hself : { w.callouts c with
        pending := false
        active := (w.callouts c).active && !(w.callouts c).pending } = w.callouts c := by
      rw [hpend, Bool.not_false, Bool.and_true, ← hpend]
    rw [hself, Function.update_eq_self]

/-! ### Arming a callout -/

section reset

variable (sbt precision : ℕ) (call : Call) (direct : Bool)

theorem frame_calloutCcAdd : Frame w (w.calloutCcAdd cfg c sbt precision call direct) := by
  rw [calloutCcAdd, informTimer]
  split <;> exact ⟨rfl, rfl, rfl, rfl, rfl, rfl, rfl, rfl, rfl⟩

theorem exec_calloutCcAdd : (w.calloutCcAdd cfg c sbt precision call direct).exec = w.exec := by
  rw [calloutCcAdd, informTimer]
  split <;> rfl

theorem log_calloutCcAdd : (w.calloutCcAdd cfg c sbt precision call direct).log = w.log := by
  rw [calloutCcAdd, informTimer]
  split <;> rfl

theorem callouts_calloutCcAdd :
    (w.calloutCcAdd cfg c sbt precision call direct).callouts = Function.update w.callouts c
      { w.callouts c with
        time := w.timeFor sbt
        precision := precisionFor (w.timeFor sbt) precision
        call := call
        pending := true
        processed := false
        active := true
        direct := (w.callouts c).direct || direct } := by
  rw [calloutCcAdd, informTimer]
  split <;> rfl

/-- The callout as `callout_reset_sbt_on` leaves it. -/
def resetCallout : Callout Lock Call :=
  if (w.resetResult c direct).2 then
    { w.callouts c with
      time := w.timeFor sbt
      precision := precisionFor (w.timeFor sbt) precision
      call := call
      pending := true
      processed := false
      active := true
      direct := (w.callouts c).direct || direct }
  else w.callouts c

theorem frame_calloutReset : Frame w (w.calloutReset cfg c sbt precision call direct) := by
  rw [calloutReset]
  split
  · refine Frame.trans ?_ (frame_calloutCcAdd cfg _ c sbt precision call direct)
    refine Frame.trans ?_ (frame_dequeueIf cfg _ c)
    exact ⟨rfl, rfl, rfl, rfl, rfl, rfl, rfl, rfl, rfl⟩
  · exact ⟨rfl, rfl, rfl, rfl, rfl, rfl, rfl, rfl, rfl⟩

theorem exec_calloutReset :
    (w.calloutReset cfg c sbt precision call direct).exec = (w.cancelCurr c direct).exec := by
  rw [calloutReset]
  split
  · rw [exec_calloutCcAdd, exec_dequeueIf]
  · rfl

theorem log_calloutReset :
    (w.calloutReset cfg c sbt precision call direct).log = w.log ++
      [.reset c (w.timeFor sbt) call (w.resetResult c direct).1 (w.resetResult c direct).2] := by
  rw [calloutReset]
  split
  · rw [log_calloutCcAdd, log_dequeueIf]
  · rfl

theorem callouts_calloutReset :
    (w.calloutReset cfg c sbt precision call direct).callouts =
      Function.update w.callouts c (w.resetCallout c sbt precision call direct) := by
  rw [calloutReset, resetCallout]
  split
  · rw [callouts_calloutCcAdd, callouts_dequeueIf, Function.update_idem, Function.update_self,
      timeFor_dequeueIf]
    rfl
  · rw [Function.update_eq_self]
    rfl

end reset

variable [DecidableEq Tid]

/-! ### Stopping a callout -/

section stop

variable (a : Agent Tid) (direct executing : Bool) (drain : Option Call)

/-- The executor as `_callout_stop_safe` leaves it. -/
def stopExec : Exec Cid Call :=
  let e := w.exec direct
  { e with
    cancel := e.cancel || w.current c direct && w.stoppable a c direct drain
    drain :=
      if w.current c direct && !w.stoppable a c direct drain then drain <|> e.drain else e.drain }

/-- The callout as `_callout_stop_safe` leaves it. -/
def stopCallout : Callout Lock Call :=
  let k := w.callouts c
  let stopped := w.current c direct && w.stoppable a c direct drain
  { k with
    pending := k.pending && stopped
    active := k.active && !w.current c direct && (stopped || !k.pending) }

theorem frame_calloutStop : Frame w (w.calloutStop cfg a c direct executing drain) := by
  rw [calloutStop]
  split
  · exact ⟨rfl, rfl, rfl, rfl, rfl, rfl, rfl, rfl, rfl⟩
  · refine Frame.trans ?_ (frame_dequeueIf cfg _ c)
    exact ⟨rfl, rfl, rfl, rfl, rfl, rfl, rfl, rfl, rfl⟩

theorem stopping_calloutStop :
    (w.calloutStop cfg a c direct executing drain).stopping a = none := by
  rw [calloutStop]
  split
  · exact Function.update_self ..
  · rw [stopping_dequeueIf]
    exact Function.update_self ..

theorem exec_calloutStop :
    (w.calloutStop cfg a c direct executing drain).exec =
      Function.update w.exec direct (w.stopExec c a direct drain) := by
  rw [calloutStop, stopExec]
  split
  · next h =>
    obtain ⟨hcurr, hstop⟩ := Bool.and_eq_true_iff.mp h
    simp [hcurr, hstop]
  · next h =>
    rw [exec_dequeueIf]
    have h : (w.current c direct && w.stoppable a c direct drain) = false := eq_false_of_ne_true h
    cases hcurr : w.current c direct <;> simp_all

theorem log_calloutStop :
    (w.calloutStop cfg a c direct executing drain).log = w.log ++
      [.stop c (w.useLock a c) executing drain.isSome
        (w.stopResult a c direct executing drain)] := by
  rw [calloutStop]
  split
  · rfl
  · rw [log_dequeueIf]

theorem callouts_calloutStop :
    (w.calloutStop cfg a c direct executing drain).callouts =
      Function.update w.callouts c (w.stopCallout c a direct drain) := by
  rw [calloutStop, stopCallout]
  split
  · next h =>
    obtain ⟨hcurr, hstop⟩ := Bool.and_eq_true_iff.mp h
    simp [hcurr, hstop]
  · next h =>
    have h : (w.current c direct && w.stoppable a c direct drain) = false := eq_false_of_ne_true h
    rw [callouts_dequeueIf]
    simp [h]

end stop

/-! ### The end of `callout_drain` -/

section drainDone

variable (t : Tid)

theorem exec_drainDone : (w.drainDone cfg t c).exec = w.exec := exec_dequeueIf cfg _ c

theorem stage_drainDone : (w.drainDone cfg t c).stage = w.stage :=
  (frame_dequeueIf cfg _ c).stage

theorem owner_drainDone : (w.drainDone cfg t c).owner = w.owner :=
  (frame_dequeueIf cfg _ c).owner

theorem sleepq_drainDone : (w.drainDone cfg t c).sleepq = w.sleepq :=
  (frame_dequeueIf cfg _ c).sleepq

theorem thread_drainDone :
    (w.drainDone cfg t c).thread = Function.update w.thread t .idle :=
  (frame_dequeueIf cfg _ c).thread

theorem log_drainDone :
    (w.drainDone cfg t c).log =
      w.log ++ [.drain c (if (w.callouts c).pending then 1 else -1)] :=
  log_dequeueIf cfg _ c

theorem callouts_drainDone :
    (w.drainDone cfg t c).callouts = Function.update w.callouts c
      { w.callouts c with
        pending := false
        active := (w.callouts c).active && !(w.callouts c).pending } :=
  callouts_dequeueIf cfg _ c

end drainDone

end VosStack.Timeout.World
