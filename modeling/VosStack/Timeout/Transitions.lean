import VosStack.Timeout.Callout
import Mathlib.Tactic.SplitIfs

/-!
# What a step of the callout subsystem can do

`World.Trans` lists the transitions of `World.step`, one constructor for each way through a
section, with the conditions that lead there. `trans_of_step` is the only place where the step
function is taken apart.
-/

namespace VosStack.Timeout.World

variable {Cid Lock Call Tid : Type*} [DecidableEq Cid] [DecidableEq Lock] [DecidableEq Tid]

/-- What a step can do. -/
inductive Trans (cfg : Setup Lock) (w : World Cid Lock Call Tid) :
    Action Cid Lock Call Tid → World Cid Lock Call Tid → Prop
  | configtimer (now period : ℕ) (hnow : w.now ≤ now) :
      Trans cfg w (.configtimer now period) (w.configtimer now period)
  | stoptimer : Trans cfg w .stoptimer { w with busy := true }
  | tickIdle (now : ℕ) (hcan : w.canTick now) (hnext : now < w.nextcall) :
      Trans cfg w (.tick now) { w with now := now }
  | tickScan (now : ℕ) (hcan : w.canTick now) :
      Trans cfg w (.tick now)
        ({ w with now := now, nextcall := sbtMax, nextcallopt := sbtMax }.calloutProcess cfg now)
  | nextBucket (s : Scan Cid) (hscan : w.scan = some s) (hidle : w.stage true = .idle)
      (htmp : s.tmp = none) (hmore : (s.firstb + 1 - s.lastb).toInt ≤ 0) :
      Trans cfg w .scan { w with scan := some (cfg.nextBucket s w.callwheel) }
  | scanDone (s : Scan Cid) (hscan : w.scan = some s) (hidle : w.stage true = .idle)
      (htmp : s.tmp = none) (hmore : 0 < (s.firstb + 1 - s.lastb).toInt) :
      Trans cfg w .scan (w.scanDone s)
  | takeDirect (s : Scan Cid) (c : Cid) (hscan : w.scan = some s) (hidle : w.stage true = .idle)
      (htmp : s.tmp = some c) (hdue : (w.callouts c).time ≤ s.now)
      (hdirect : (w.callouts c).direct = true) : Trans cfg w .scan (w.takeDirect cfg s c)
  | expire (s : Scan Cid) (c : Cid) (hscan : w.scan = some s) (hidle : w.stage true = .idle)
      (htmp : s.tmp = some c) (hdue : (w.callouts c).time ≤ s.now)
      (hdirect : (w.callouts c).direct = false) : Trans cfg w .scan (w.expire cfg s c)
  | lookAt (s : Scan Cid) (c : Cid) (hscan : w.scan = some s) (hidle : w.stage true = .idle)
      (htmp : s.tmp = some c) (hdue : s.now < (w.callouts c).time) :
      Trans cfg w .scan
        { w with
          scan := some
            { s.lookAt (w.callouts c).time (w.callouts c).precision with
              tmp := Queue.next (w.callwheel (cfg.index s.firstb)) c } }
  | swiSched (hscanned : w.scanned = true) :
      Trans cfg w .swiSched { w with scanned := false, swi := w.swi || !w.expireq.isEmpty }
  | softclockStart (hsoft : w.softclock = false) (hswi : w.swi = true) :
      Trans cfg w .softclock { w with swi := false, softclock := true }
  | softclockEnd (hsoft : w.softclock = true) (hidle : w.stage false = .idle)
      (hq : w.expireq = []) : Trans cfg w .softclock { w with softclock := false }
  | softclockTake (c : Cid) (q : List Cid) (hsoft : w.softclock = true)
      (hidle : w.stage false = .idle) (hfree : w.free = true) (hq : w.expireq = c :: q) :
      Trans cfg w .softclock ({ w with expireq := q }.softclockCallCc c false)
  | lockCallout (d : Bool) (c : Cid) (call : Call) (l : Lock) (hstage : w.stage d = .entered c call)
      (hlock : (w.callouts c).lock = some l) (hown : w.owner l = none) :
      Trans cfg w (.lockCallout d) (w.lockCallout d c call l)
  | callUnlocked (d : Bool) (c : Cid) (call : Call) (hstage : w.stage d = .entered c call)
      (hlock : (w.callouts c).lock = none) : Trans cfg w (.call d) (w.callHandler d c call)
  | skip (d : Bool) (c : Cid) (call : Call) (l : Lock) (hstage : w.stage d = .holding c call)
      (hlock : (w.callouts c).lock = some l) (hcancel : (w.exec d).cancel = true) :
      Trans cfg w (.testCancel d) (w.skip d c l)
  | commit (d : Bool) (c : Cid) (call : Call) (l : Lock) (hstage : w.stage d = .holding c call)
      (hlock : (w.callouts c).lock = some l) (hcancel : (w.exec d).cancel = false) :
      Trans cfg w (.testCancel d) (w.commit d c call)
  | callLocked (d : Bool) (c : Cid) (call : Call) (hstage : w.stage d = .committed c call) :
      Trans cfg w (.call d) (w.callHandler d c call)
  | handlerReturns (d : Bool) (c : Cid) (call : Call) (hstage : w.stage d = .running c call)
      (hcan : w.canReturn d c = true) (hstop : w.stopping (.handler d) = none) :
      Trans cfg w (.handlerReturns d) (w.handlerReturns d c)
  | finish (d : Bool) (c : Cid) (hstage : w.stage d = .returned c) (hfree : w.free = true) :
      Trans cfg w (.finish d) (w.finish d c)
  | drainReturns (d : Bool) (f : Call) (hstage : w.stage d = .draining f) (hfree : w.free = true)
      (hstop : w.stopping (.handler d) = none) :
      Trans cfg w (.drainReturns d) (w.wakeWaiting d)
  | wakeup (d : Bool) (hstage : w.stage d = .waking) (hq : w.sleepq d = none) :
      Trans cfg w (.wakeup d) (w.wakeup d)
  | reset (a : Agent Tid) (c : Cid) (sbt precision : ℕ) (call : Call) (direct : Bool)
      (hcan : w.canCall a = true) (hfree : w.free = true) (hsbt : sbt ≤ sbtMax) :
      Trans cfg w (.reset a c sbt precision call direct)
        (w.calloutReset cfg c sbt precision call direct)
  | stop (a : Agent Tid) (c : Cid) (executing : Bool) (drain : Option Call)
      (hcan : w.canCall a = true) (hstop : w.canStop cfg a c = true) :
      Trans cfg w (.stop a c executing drain)
        { w with
          stopping := Function.update w.stopping a
            (some ⟨c, (w.callouts c).direct, executing, drain⟩) }
  | stopTurn (a : Agent Tid) (c : Cid) (direct executing : Bool) (drain : Option Call)
      (hstop : w.stopping a = some ⟨c, direct, executing, drain⟩) (hrun : w.isRunning a = true)
      (hfree : w.free = true) :
      Trans cfg w (.stopTurn a) (w.calloutStop cfg a c direct executing drain)
  | drain (t : Tid) (c : Cid) (hpc : w.thread t = .idle) :
      Trans cfg w (.drain t c)
        { w with thread := Function.update w.thread t (.again c (w.callouts c).direct) }
  | drainBusy (t : Tid) (c : Cid) (d : Bool) (hpc : w.thread t = .again c d)
      (hcurr : (w.exec d).curr = some c) :
      Trans cfg w (.drainTurn t)
        { w with thread := Function.update w.thread t (.sleepq c d) }
  | drainDone (t : Tid) (c : Cid) (d : Bool) (hpc : w.thread t = .again c d)
      (hfree : w.free = true) (hcurr : (w.exec d).curr ≠ some c) :
      Trans cfg w (.drainTurn t) (w.drainDone cfg t c)
  | drainLock (t : Tid) (c : Cid) (d : Bool) (hpc : w.thread t = .sleepq c d)
      (hq : w.sleepq d = none) :
      Trans cfg w (.drainTurn t)
        { w with
          sleepq := Function.update w.sleepq d (some t)
          thread := Function.update w.thread t (.locked c d) }
  | drainWait (t : Tid) (c : Cid) (d : Bool) (hpc : w.thread t = .locked c d)
      (hcurr : (w.exec d).curr = some c) :
      Trans cfg w (.drainTurn t)
        { w with
          exec := Function.update w.exec d { w.exec d with waiting := true }
          thread := Function.update w.thread t (.adding c d) }
  | drainUnlock (t : Tid) (c : Cid) (d : Bool) (hpc : w.thread t = .locked c d)
      (hfree : w.free = true) (hcurr : (w.exec d).curr ≠ some c) :
      Trans cfg w (.drainTurn t)
        ({ w with sleepq := Function.update w.sleepq d none }.drainDone cfg t c)
  | drainSleep (t : Tid) (c : Cid) (d : Bool) (hpc : w.thread t = .adding c d) :
      Trans cfg w (.drainTurn t)
        { w with
          sleepq := Function.update w.sleepq d none
          thread := Function.update w.thread t (.asleep c d) }
  | drainAwake (t : Tid) (c : Cid) (d : Bool) (hpc : w.thread t = .asleep c d) :
      Trans cfg w (.drainTurn t) { w with thread := Function.update w.thread t (.again c d) }
  | lock (a : Agent Tid) (l : Lock) (hcan : w.canCall a = true) (hown : w.owner l = none) :
      Trans cfg w (.lock a l) { w with owner := Function.update w.owner l (some a) }
  | unlock (a : Agent Tid) (l : Lock) (hcan : w.canCall a = true) (hown : w.owner l = some a) :
      Trans cfg w (.unlock a l) { w with owner := Function.update w.owner l none }

variable {cfg : Setup Lock} {w w' : World Cid Lock Call Tid}

omit [DecidableEq Cid] [DecidableEq Lock] [DecidableEq Tid] in
theorem isRunning_of_canCall {a : Agent Tid} (h : w.canCall a = true) : w.isRunning a = true :=
  (Bool.and_eq_true_iff.mp h).1

omit [DecidableEq Cid] [DecidableEq Lock] [DecidableEq Tid] in
theorem idle_of_canCall {t : Tid} (h : w.canCall (.thread t) = true) : w.thread t = .idle := by
  have h := isRunning_of_canCall h
  rw [isRunning] at h
  split at h
  · assumption
  · exact absurd h Bool.false_ne_true

theorem trans_of_scanTurn {s : Scan Cid} (hscan : w.scan = some s)
    (hidle : w.stage true = .idle) : Trans cfg w .scan (w.scanTurn cfg s) := by
  rw [scanTurn]
  split
  case h_1 htmp =>
    rw [World.nextBucket]
    split_ifs with hmore
    · exact .nextBucket s hscan hidle htmp hmore
    · exact .scanDone s hscan hidle htmp (Int.not_le.mp hmore)
  case h_2 c htmp =>
    split_ifs with hdue hdirect
    · exact .takeDirect s c hscan hidle htmp hdue hdirect
    · exact .expire s c hscan hidle htmp hdue (eq_false_of_ne_true hdirect)
    · exact .lookAt s c hscan hidle htmp (Nat.lt_of_not_le hdue)

theorem trans_of_drainTurn {t : Tid} (h : w.drainTurn cfg t (w.thread t) = some w') :
    Trans cfg w (.drainTurn t) w' := by
  generalize hpc : w.thread t = pc at h
  cases pc with
  | idle => simp [drainTurn] at h
  | again c d =>
    simp only [drainTurn] at h
    split_ifs at h with hfree hcurr <;> obtain rfl := Option.some.inj h
    · exact .drainBusy t c d hpc hcurr
    · exact .drainDone t c d hpc hfree hcurr
  | sleepq c d =>
    simp only [drainTurn] at h
    split_ifs at h with hq
    obtain rfl := Option.some.inj h
    exact .drainLock t c d hpc hq
  | locked c d =>
    simp only [drainTurn] at h
    split_ifs at h with hfree hcurr <;> obtain rfl := Option.some.inj h
    · exact .drainWait t c d hpc hcurr
    · exact .drainUnlock t c d hpc hfree hcurr
  | adding c d =>
    obtain rfl := Option.some.inj h
    exact .drainSleep t c d hpc
  | asleep c d =>
    obtain rfl := Option.some.inj h
    exact .drainAwake t c d hpc

theorem trans_of_call {d : Bool} (h : w.step cfg (.call d) = some w') :
    Trans cfg w (.call d) w' := by
  simp only [step] at h
  split at h
  case h_3 => simp at h
  case h_1 c call hstage =>
    split_ifs at h with hlock
    obtain rfl := Option.some.inj h
    exact .callUnlocked d c call hstage hlock
  case h_2 c call hstage =>
    obtain rfl := Option.some.inj h
    exact .callLocked d c call hstage

theorem trans_of_testCancel {d : Bool} (h : w.step cfg (.testCancel d) = some w') :
    Trans cfg w (.testCancel d) w' := by
  simp only [step] at h
  split at h
  case h_2 => simp at h
  case h_1 c call hstage =>
    split at h
    case h_2 => simp at h
    case h_1 l hlock =>
      obtain rfl := Option.some.inj h
      split_ifs with hcancel
      · exact .skip d c call l hstage hlock hcancel
      · exact .commit d c call l hstage hlock (eq_false_of_ne_true hcancel)

theorem trans_of_softclock (h : w.step cfg .softclock = some w') :
    Trans cfg w .softclock w' := by
  rw [step] at h
  split at h
  case isTrue hsoft =>
    split at h
    case h_2 => simp at h
    case h_1 hidle =>
      split_ifs at h with hfree
      obtain rfl := Option.some.inj h
      rw [softclockTurn]
      split
      · next hq => exact .softclockEnd hsoft hidle hq
      · next c q hq => exact .softclockTake c q hsoft hidle hfree hq
  case isFalse hsoft =>
    split_ifs at h with hswi
    obtain rfl := Option.some.inj h
    exact .softclockStart (eq_false_of_ne_true hsoft) hswi

/-- Every step is one of the listed transitions. -/
theorem trans_of_step {a : Action Cid Lock Call Tid} (h : w.step cfg a = some w') :
    Trans cfg w a w' := by
  cases a with
  | configtimer now period =>
    simp only [step] at h
    split_ifs at h with hnow
    obtain rfl := Option.some.inj h
    exact .configtimer now period hnow
  | stoptimer =>
    obtain rfl := Option.some.inj h
    exact .stoptimer
  | tick now =>
    simp only [step, handleevents] at h
    split_ifs at h with hcan hnext <;> obtain rfl := Option.some.inj h
    · exact .tickScan now hcan
    · exact .tickIdle now hcan (Nat.lt_of_not_le (not_or.mp hnext).2)
  | scan =>
    simp only [step] at h
    split at h
    case h_2 => simp at h
    case h_1 s hscan hidle =>
      obtain rfl := Option.some.inj h
      exact trans_of_scanTurn hscan hidle
  | swiSched =>
    simp only [step] at h
    split_ifs at h with hscanned
    obtain rfl := Option.some.inj h
    exact .swiSched hscanned
  | softclock => exact trans_of_softclock h
  | lockCallout d =>
    simp only [step] at h
    split at h
    case h_2 => simp at h
    case h_1 c call hstage =>
      split at h
      case h_2 => simp at h
      case h_1 l hlock =>
        split_ifs at h with hown
        obtain rfl := Option.some.inj h
        exact .lockCallout d c call l hstage hlock hown
  | testCancel d => exact trans_of_testCancel h
  | call d => exact trans_of_call h
  | handlerReturns d =>
    simp only [step] at h
    split at h
    case h_2 => simp at h
    case h_1 c call hstage =>
      split_ifs at h with hcan
      obtain rfl := Option.some.inj h
      exact .handlerReturns d c call hstage hcan.1 (Option.isNone_iff_eq_none.mp hcan.2)
  | finish d =>
    simp only [step] at h
    split at h
    case h_2 => simp at h
    case h_1 c hstage =>
      split_ifs at h with hfree
      obtain rfl := Option.some.inj h
      exact .finish d c hstage hfree
  | drainReturns d =>
    simp only [step] at h
    split at h
    case h_2 => simp at h
    case h_1 f hstage =>
      split_ifs at h with hcan
      obtain rfl := Option.some.inj h
      exact .drainReturns d f hstage hcan.1 (Option.isNone_iff_eq_none.mp hcan.2)
  | wakeup d =>
    simp only [step] at h
    split at h
    case h_2 => simp at h
    case h_1 hstage =>
      split_ifs at h with hq
      obtain rfl := Option.some.inj h
      exact .wakeup d hstage hq
  | reset a c sbt precision call direct =>
    simp only [step] at h
    split_ifs at h with hcan
    obtain rfl := Option.some.inj h
    exact .reset a c sbt precision call direct hcan.1 hcan.2.1 hcan.2.2
  | stop a c executing drain =>
    simp only [step] at h
    split_ifs at h with hcan
    obtain rfl := Option.some.inj h
    exact .stop a c executing drain hcan.1 hcan.2
  | stopTurn a =>
    simp only [step] at h
    split at h
    case h_2 => simp at h
    case h_1 s hstop =>
      split_ifs at h with hcan
      obtain rfl := Option.some.inj h
      exact .stopTurn a s.c s.direct s.executing s.drain hstop hcan.1 hcan.2
  | drain t c =>
    simp only [step] at h
    split_ifs at h with hcan
    obtain rfl := Option.some.inj h
    exact .drain t c (idle_of_canCall hcan)
  | drainTurn t => exact trans_of_drainTurn h
  | lock a l =>
    simp only [step] at h
    split_ifs at h with hcan
    obtain rfl := Option.some.inj h
    exact .lock a l hcan.1 hcan.2
  | unlock a l =>
    simp only [step] at h
    split_ifs at h with hcan
    obtain rfl := Option.some.inj h
    exact .unlock a l hcan.1 hcan.2

end VosStack.Timeout.World
