import VosStack.Timeout.Wheel
import VosStack.Timeout.Effects

/-!
# The callout subsystem moves the wheel

The view of the callout subsystem changes by moves only, so what the moves keep holds in every
state that the subsystem reaches.
-/

namespace VosStack.Timeout

variable {Cid Lock Call Tid : Type*}

/-- The lists, the scan and the event timer of the subsystem. -/
def World.view (w : World Cid Lock Call Tid) : View Cid where
  entry c := (w.callouts c).entry
  callwheel := w.callwheel
  expireq := w.expireq
  next := w.next
  bucket := w.bucket
  firstevent := w.firstevent
  lastscan := w.lastscan
  now := w.now
  nextcall := w.nextcall
  busy := w.busy
  started := w.started
  scan := w.scan
  calling := (w.stage true).engaged

/-- The time of a tick. -/
def Action.tickTime : Action Cid Lock Call Tid → Option ℕ
  | .tick now => some now
  | _ => none

namespace World

variable {cfg : Setup Lock} {w w' : World Cid Lock Call Tid} {ok : ℕ → ℕ → Prop}

open View (Linked Move Moves)

theorem free_view (h : w.free = true) : w.view.Free := by
  intro s hs
  have hs : w.scan = some s := hs
  rw [free, hs] at h
  exact h

/-- An executor that stays in `softclock_call_cc` does not touch the view. -/
theorem view_setStage (w : World Cid Lock Call Tid) {d : Bool} {x : Stage Cid Call}
    (h : (w.stage d).engaged = true) (hx : x.engaged = true) :
    { w with stage := Function.update w.stage d x }.view = w.view := by
  cases d with
  | false => rfl
  | true =>
    have hcall : (Function.update w.stage true x true).engaged = (w.stage true).engaged := by
      rw [Function.update_self, h, hx]
    simp only [view, hcall]

theorem scan_retire (w : World Cid Lock Call Tid) (d : Bool) :
    (w.retire d).scan = none ↔ w.scan = none := by
  cases d with
  | false => exact Iff.rfl
  | true => exact Option.map_eq_none_iff

theorem scan_wakeWaiting (w : World Cid Lock Call Tid) (d : Bool) :
    (w.wakeWaiting d).scan = none ↔ w.scan = none := by
  rw [wakeWaiting]
  split
  · exact Iff.rfl
  · exact scan_retire w d

theorem linked_init (lock : Cid → Option Lock) (returnUnlocked : Cid → Bool) (call : Call) :
    Linked cfg (init lock returnUnlocked call : World Cid Lock Call Tid).view where
  lists := ⟨by simp [init, view, calloutInitLock, Callout.entry],
    by simp [init, view, calloutInitLock, Callout.entry], fun _ => List.nodup_nil,
    List.nodup_nil⟩
  cursor := fun s hs => absurd hs (by simp [init, view])
  bucket := fun s hs => absurd hs (by simp [init, view])
  scanning := fun hcall => absurd hcall (by simp [init, view, Stage.engaged])

variable [DecidableEq Cid]

theorem entry_update (callouts : Cid → Callout Lock Call) (c : Cid) (k : Callout Lock Call) :
    (fun x => (Function.update callouts c k x).entry) =
      Function.update (fun x => (callouts x).entry) c k.entry :=
  Function.comp_update Callout.entry callouts c k

theorem moves_setStage (w : World Cid Lock Call Tid) {d : Bool} {x : Stage Cid Call}
    (h : (w.stage d).engaged = true) (hx : x.engaged = true) :
    Moves cfg ok w.view { w with stage := Function.update w.stage d x }.view := by
  rw [view_setStage w h hx]
  exact .refl

/-- An executor is done. -/
theorem moves_retire (w : World Cid Lock Call Tid) {d : Bool} (h : (w.stage d).engaged = true) :
    Moves cfg ok w.view (w.retire d).view := by
  cases d with
  | false => exact .refl
  | true =>
    have hm : Move cfg ok w.view _ := .resume h
    exact .single hm

/-- An executor wakes threads or is done. -/
theorem moves_wakeWaiting (w : World Cid Lock Call Tid) {d : Bool}
    (h : (w.stage d).engaged = true) : Moves cfg ok w.view (w.wakeWaiting d).view := by
  rw [wakeWaiting]
  split
  · have hview := view_setStage
      { w with exec := Function.update w.exec d { w.exec d with waiting := false } } h
      (x := .waking) rfl
    rw [hview]
    exact .refl
  · exact moves_retire w h

/-- A pending callout is taken off its list. -/
theorem moves_dequeue (h : Linked cfg w.view) (hfree : w.view.Free) {c : Cid}
    (hpend : (w.callouts c).pending = true) :
    Moves cfg ok w.view (w.dequeue cfg c).view := by
  by_cases hproc : (w.callouts c).processed = true
  · have hmem : c ∈ w.view.expireq := (h.lists.mem_expireq c).mpr ⟨hpend, hproc⟩
    have hview : (w.dequeue cfg c).view = w.view.unexpire c := by
      simp only [view, dequeue, entry_update, if_pos hproc]
      rfl
    rw [hview]
    exact .single (.unexpire c hmem)
  · have hmem : c ∈ w.view.callwheel (cfg.calloutGetBucket (w.callouts c).time) :=
      (h.lists.mem_callwheel c _).mpr ⟨hpend, eq_false_of_ne_true hproc, rfl⟩
    have hview : (w.dequeue cfg c).view =
        w.view.unwheel c (cfg.calloutGetBucket (w.callouts c).time) := by
      simp only [view, dequeue, entry_update, if_neg hproc]
      rfl
    rw [hview]
    exact .single (.unwheel c _ hfree hmem)

theorem moves_dequeueIf (hview : w'.view = w.view) (h : Linked cfg w.view)
    (hfree : w.view.Free) (c : Cid) : Moves cfg ok w.view (w'.dequeueIf cfg c).view := by
  rw [← hview] at h hfree ⊢
  rw [dequeueIf]
  split
  · next hpend => exact moves_dequeue h hfree hpend
  · exact .refl

theorem pending_dequeueIf (w : World Cid Lock Call Tid) (c : Cid) :
    ((w.dequeueIf cfg c).callouts c).pending = false := by
  rw [callouts_dequeueIf, Function.update_self]

/-- A callout is armed. -/
theorem view_calloutCcAdd (w : World Cid Lock Call Tid) (c : Cid) (sbt precision : ℕ)
    (call : Call) (direct : Bool) :
    (w.calloutCcAdd cfg c sbt precision call direct).view =
      w.view.arm cfg c (w.timeFor sbt) (precisionFor (w.timeFor sbt) precision) := by
  rw [calloutCcAdd, informTimer]
  by_cases hlt : w.timeFor sbt + precisionFor (w.timeFor sbt) precision < w.firstevent
  · rw [if_pos (show _ < (w.insertHead cfg c _ _ call direct).firstevent from hlt)]
    simp only [view, insertHead, cpuNewCallout, View.arm, entry_update, hlt, true_and,
      Nat.min_eq_left (Nat.le_of_lt hlt)]
    by_cases hbusy : w.busy = true
    · simp only [hbusy, if_true, Bool.true_eq_false, if_false]
      rfl
    · simp only [eq_false_of_ne_true hbusy, Bool.false_eq_true, if_false, if_true]
      rfl
  · rw [if_neg (show ¬ _ < (w.insertHead cfg c _ _ call direct).firstevent from hlt)]
    simp only [view, insertHead, View.arm, entry_update, hlt, false_and, if_false,
      Nat.min_eq_right (Nat.le_of_not_lt hlt)]
    rfl

/-- A callout is taken off its list and armed again. -/
theorem moves_rearm (h : Linked cfg w.view) (hfree : w.view.Free) (c : Cid)
    (sbt precision : ℕ) (call : Call) (direct : Bool) :
    Moves cfg ok w.view
      ((w.dequeueIf cfg c).calloutCcAdd cfg c sbt precision call direct).view := by
  have hfree' : (w.dequeueIf cfg c).view.Free := by
    intro s hs
    have hs : (w.dequeueIf cfg c).scan = some s := hs
    rw [(frame_dequeueIf cfg w c).scan] at hs
    change ((w.dequeueIf cfg c).stage true).engaged = true
    rw [(frame_dequeueIf cfg w c).stage]
    exact hfree s hs
  rw [view_calloutCcAdd]
  exact (moves_dequeueIf rfl h hfree c).tail
    (.arm c _ _ hfree' (pending_dequeueIf w c) (Nat.le_max_right _ _))

theorem moves_calloutReset (h : Linked cfg w.view) (hfree : w.view.Free) (c : Cid)
    (sbt precision : ℕ) (call : Call) (direct : Bool) :
    Moves cfg ok w.view (w.calloutReset cfg c sbt precision call direct).view := by
  rw [calloutReset]
  split
  · exact moves_rearm (w := { w.cancelCurr c direct with log := _ }) h hfree c sbt precision
      call direct
  · exact .refl

/-- `CALLOUT_ACTIVE` is not seen in the view. -/
theorem view_setActive (w : World Cid Lock Call Tid) (c : Cid) (active : Bool) :
    { w with
      callouts := Function.update w.callouts c
        { w.callouts c with active := active } }.view = w.view := by
  have hentry : Function.update (fun x => (w.callouts x).entry) c (w.callouts c).entry =
      fun x => (w.callouts x).entry := Function.update_eq_self c _
  simp only [view, entry_update]
  exact congrArg (fun e => { w.view with entry := e }) hentry

theorem moves_calloutStop [DecidableEq Tid] (h : Linked cfg w.view) (hfree : w.view.Free)
    (a : Agent Tid) (c : Cid) (direct executing : Bool) (drain : Option Call) :
    Moves cfg ok w.view (w.calloutStop cfg a c direct executing drain).view := by
  have hview := view_setActive w c ((w.callouts c).active && !w.current c direct)
  rw [calloutStop]
  split
  · exact hview ▸ .refl
  · refine moves_dequeueIf ?_ h hfree c
    exact hview

theorem moves_drainDone [DecidableEq Tid] (hview : w'.view = w.view) (h : Linked cfg w.view)
    (hfree : w.view.Free) (t : Tid) (c : Cid) :
    Moves cfg ok w.view (w'.drainDone cfg t c).view := by
  refine moves_dequeueIf ?_ h hfree c
  exact hview

/-- The end of `softclock_call_cc`. -/
theorem moves_finish (w : World Cid Lock Call Tid) {d : Bool} (c : Cid)
    (h : (w.stage d).engaged = true) : Moves cfg ok w.view (w.finish d c).view := by
  rw [finish]
  split
  · next f hdrain =>
    have hview := view_setStage w h (x := .draining f) rfl
    exact hview ▸ .refl
  · refine moves_wakeWaiting { w with exec := Function.update w.exec d _, log := w.log ++ _ } ?_
    exact h

/-- What the moves keep is kept by several moves. -/
theorem keeps_of_moves {I : View Cid → Prop} {v v' : View Cid}
    (hI : ∀ v v', Linked cfg v → I v → Move cfg ok v v' → I v') (hv : Linked cfg v ∧ I v)
    (hm : Moves cfg ok v v') : Linked cfg v' ∧ I v' := by
  induction hm with
  | refl => exact hv
  | tail _ hm ih => exact ⟨View.linked_of_move ih.1 hm, hI _ _ ih.1 ih.2 hm⟩

/-- The times of two successive scans meet the condition `ok`. -/
def Ticks (ok : ℕ → ℕ → Prop) (w : World Cid Lock Call Tid) (a : Action Cid Lock Call Tid) :
    Prop := ∀ now ∈ a.tickTime, ok w.lastscan now

instance (ok : ℕ → ℕ → Prop) [DecidableRel ok] (w : World Cid Lock Call Tid)
    (a : Action Cid Lock Call Tid) : Decidable (Ticks ok w a) :=
  inferInstanceAs (Decidable (∀ now ∈ a.tickTime, ok w.lastscan now))

variable [DecidableEq Lock] [DecidableEq Tid]

/-- A step of the subsystem moves the wheel. -/
theorem moves_of_trans {a : Action Cid Lock Call Tid} (h : Linked cfg w.view)
    (hok : Ticks ok w a) (ht : Trans cfg w a w') :
    Moves cfg ok w.view w'.view := by
  cases ht with
  | configtimer now period hnow => exact .single (.configtimer now period hnow)
  | stoptimer => exact .single .stoptimer
  | tickIdle now hcan hnext =>
    exact .single (.tick now hcan.2.2.2.1 hcan.2.1 hcan.1 hnext)
  | tickScan now hcan =>
    exact .single (.process now hcan.2.2.2.1 hcan.2.1 (hok now rfl))
  | nextBucket s hscan hidle htmp hmore =>
    exact .single (.nextBucket s hscan (congrArg Stage.engaged hidle) htmp hmore)
  | scanDone s hscan hidle htmp hmore =>
    exact .single (.done s hscan (congrArg Stage.engaged hidle) htmp hmore)
  | takeDirect s c hscan hidle htmp hdue hdirect =>
    have hm : Move cfg ok w.view _ :=
      .takeDirect s c hscan (congrArg Stage.engaged hidle) htmp hdue
    have hview : (w.takeDirect cfg s c).view = w.view.takeDirect c (cfg.index s.firstb) := by
      simp only [view, World.takeDirect, softclockCallCc, entry_update, Function.update_self]
      rfl
    rw [hview]
    exact .single hm
  | expire s c hscan hidle htmp hdue hdirect =>
    have hm : Move cfg ok w.view _ := .expire s c hscan (congrArg Stage.engaged hidle) htmp hdue
    have hview : (w.expire cfg s c).view = w.view.expire s c (cfg.index s.firstb) := by
      simp only [view, World.expire, entry_update]
      rfl
    rw [hview]
    exact .single hm
  | lookAt s c hscan hidle htmp hdue =>
    exact .single (.lookAt s c hscan (congrArg Stage.engaged hidle) htmp hdue)
  | swiSched hscanned => exact .refl
  | softclockStart hsoft hswi => exact .refl
  | softclockEnd hsoft hidle hq => exact .refl
  | softclockTake c q hsoft hidle hfree hq =>
    have hmem : c ∈ w.view.expireq := by
      change c ∈ w.expireq
      rw [hq]
      exact List.mem_cons_self
    have hview : ({ w with expireq := q }.softclockCallCc c false).view = w.view.unexpire c := by
      simp only [view, softclockCallCc, entry_update, View.unexpire, hq, List.erase_cons_head]
      rfl
    rw [hview]
    exact .single (.unexpire c hmem)
  | lockCallout d c call l hstage hlock hown =>
    exact moves_setStage w (congrArg Stage.engaged hstage) (x := .holding c call) rfl
  | callUnlocked d c call hstage hlock =>
    exact moves_setStage w (congrArg Stage.engaged hstage) (x := .running c call) rfl
  | skip d c call l hstage hlock hcancel =>
    exact moves_setStage w (congrArg Stage.engaged hstage) (x := .returned c) rfl
  | commit d c call l hstage hlock hcancel =>
    exact moves_setStage w (congrArg Stage.engaged hstage) (x := .committed c call) rfl
  | callLocked d c call hstage =>
    exact moves_setStage w (congrArg Stage.engaged hstage) (x := .running c call) rfl
  | handlerReturns d c call hstage hcan hstop =>
    exact moves_setStage w (congrArg Stage.engaged hstage) (x := .returned c) rfl
  | finish d c hstage hfree => exact moves_finish w c (congrArg Stage.engaged hstage)
  | drainReturns d f hstage hfree hstop => exact moves_wakeWaiting w (congrArg Stage.engaged hstage)
  | wakeup d hstage hq => exact moves_retire _ (congrArg Stage.engaged hstage)
  | reset a c sbt precision call direct hcan hfree hsbt =>
    exact moves_calloutReset h (free_view hfree) c sbt precision call direct
  | stop a c executing drain hcan hstop => exact .refl
  | stopTurn a c direct executing drain hstop hrun hfree =>
    exact moves_calloutStop h (free_view hfree) a c direct executing drain
  | drain t c hpc => exact .refl
  | drainBusy t c d hpc hcurr => exact .refl
  | drainDone t c d hpc hfree hcurr => exact moves_drainDone rfl h (free_view hfree) t c
  | drainLock t c d hpc hq => exact .refl
  | drainWait t c d hpc hcurr => exact .refl
  | drainUnlock t c d hpc hfree hcurr =>
    refine moves_drainDone ?_ h (free_view hfree) t c
    rfl
  | drainSleep t c d hpc => exact .refl
  | drainAwake t c d hpc => exact .refl
  | lock a l hcan hown => exact .refl
  | unlock a l hcan hown => exact .refl

/-! ### The end of a scan -/

/-- A scan ends behind its last bucket only. -/
theorem done_of_trans {a : Action Cid Lock Call Tid} {s : Scan Cid} (ht : Trans cfg w a w')
    (hscan : w.scan = some s) (hnone : w'.scan = none) :
    w' = w.scanDone s ∧ w.stage true = .idle ∧ s.tmp = none ∧
      0 < (s.firstb + 1 - s.lastb).toInt := by
  have hkept : ∀ {P : Prop}, w.scan = none → P := fun hnone =>
    absurd (hscan.symm.trans hnone) (Option.some_ne_none s)
  cases ht with
  | scanDone s' hscan' hidle htmp hmore =>
    obtain rfl : s = s' := Option.some.inj (hscan.symm.trans hscan')
    exact ⟨rfl, hidle, htmp, hmore⟩
  | nextBucket => exact absurd hnone (Option.some_ne_none _)
  | expire => exact absurd hnone (Option.some_ne_none _)
  | lookAt => exact absurd hnone (Option.some_ne_none _)
  | tickScan => exact absurd hnone (Option.some_ne_none _)
  | finish d c hstage hfree =>
    rw [finish] at hnone
    split at hnone
    · exact hkept hnone
    · rw [scan_wakeWaiting] at hnone
      exact hkept hnone
  | drainReturns d f hstage hfree hstop => exact hkept ((scan_wakeWaiting w d).mp hnone)
  | wakeup d hstage hq => exact hkept ((scan_retire _ d).mp hnone)
  | reset => exact hkept ((frame_calloutReset cfg w _ _ _ _ _).scan.symm.trans hnone)
  | stopTurn => exact hkept ((frame_calloutStop cfg w _ _ _ _ _).scan.symm.trans hnone)
  | drainDone =>
    rw [drainDone, (frame_dequeueIf cfg _ _).scan] at hnone
    exact hkept hnone
  | drainUnlock =>
    rw [drainDone, (frame_dequeueIf cfg _ _).scan] at hnone
    exact hkept hnone
  | _ => exact hkept hnone

/-! ### Every run -/

open Transition

/-- The lists are in order after every step. -/
theorem linked_of_trans {a : Action Cid Lock Call Tid} (h : Linked cfg w.view)
    (ht : Trans cfg w a w') : Linked cfg w'.view := by
  have hm : Moves cfg (fun _ _ => True) w.view w'.view :=
    moves_of_trans h (fun _ _ => trivial) ht
  exact (keeps_of_moves (I := fun _ => True) (fun _ _ _ _ _ => trivial) ⟨h, trivial⟩ hm).1

/-- What the moves keep holds in every state reached. -/
theorem view_of_reach {I : View Cid → Prop} {lock : Cid → Option Lock}
    {returnUnlocked : Cid → Bool} {call : Call}
    (h : Reach (step cfg) (Ticks ok) (init lock returnUnlocked call) w)
    (h₀ : I (init lock returnUnlocked call : World Cid Lock Call Tid).view)
    (hI : ∀ v v', Linked cfg v → I v → Move cfg ok v v' → I v') :
    Linked cfg w.view ∧ I w.view := by
  refine h.induct (I := fun w => Linked cfg w.view ∧ I w.view) ⟨linked_init _ _ _, h₀⟩ ?_
  intro w w' a hw hok hs
  exact keeps_of_moves hI hw (moves_of_trans hw.1 hok (trans_of_step hs))

end World

end VosStack.Timeout
