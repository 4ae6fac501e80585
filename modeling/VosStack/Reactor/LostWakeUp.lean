import VosStack.Reactor.EventLoop

/-!
# No wake-up is lost

Only the post that finds the size of the queue to be zero notifies, and the queue is drained from
the notify handler as well as at the end of the loop body. Nevertheless a loop that is blocked
with events pending will be woken: after a report the loop drains the queue before it waits
again, so that events still pending at the next wait were posted after the drain (and the
first of them notified), or were left by a drain of more than `maxGetOnce` (and the loop
notified itself).

`Drains` and `Checks` name the positions from which the loop will look at the queue, or at
the stop flag, before it waits again. `WakeInv` says that whoever is not looked at in this
way is announced: the edge is set, or a caller is about to set it.

Posts and drains go by `m_dwSize`. It is zero with `2 ^ 32` events pending too, and then the loop
does wait with nobody to wake it.
-/

namespace VosStack.Reactor

open Transition

open EventQueue (CFSEventQueueBase maxGetOnce)

/-- From here the loop drains the queue, or notifies itself, before it waits again. -/
def LoopPos.Drains {ε : Type*} : LoopPos ε → Prop
  | .handlers _ => True
  | .drain _ => True
  | .firing _ remain k => remain ≠ 0 ∨ k ≠ .toLoop
  | .renotify _ => True
  | _ => False

/-- From here the loop tests the stop flag before it waits again, or is over. -/
def LoopPos.Checks {ε : Type*} : LoopPos ε → Prop
  | .timers => False
  | .enter => False
  | .wait _ => False
  | _ => True

theorem Return.checks_next {ε : Type*} (k : Return) : (k.next : LoopPos ε).Checks := by
  cases k <;> trivial

theorem Return.drains_next {ε : Type*} {k : Return} (hk : k ≠ .toLoop) :
    (k.next : LoopPos ε).Drains := by
  cases k with
  | toHandlers rs => trivial
  | toLoop => exact absurd rfl hk

/-- The events that the loop has popped and not yet fired. -/
def LoopPos.batch {ε : Type*} : LoopPos ε → List ε
  | .firing es _ _ => es
  | _ => []

theorem Return.batch_next {ε : Type*} (k : Return) :
    (k.next : LoopPos ε).batch = [] := by
  cases k <;> rfl

namespace World

variable {Tid ε : Type*} [DecidableEq Tid]

/-! ### The transitions -/

/-- The transitions of the reactor. -/
inductive Trans (w : World Tid ε) : Action Tid ε → World Tid ε → Prop
  | postRejected (c : Option Tid) (e : ε) : Trans w (.postEvent c e) w
  | postFirst (c : Option Tid) (e : ε) (hc : w.MayCall c) (hq : w.queue.dwSize = 0) :
      Trans w (.postEvent c e)
        { w with
          queue := w.queue.append e
          accepted := w.accepted ++ [e]
          caller := Function.update w.caller c .posted }
  | postMore (c : Option Tid) (e : ε) (hc : w.MayCall c) (hq : w.queue.dwSize ≠ 0) :
      Trans w (.postEvent c e)
        { w with
          queue := w.queue.append e
          accepted := w.accepted ++ [e]
          caller := Function.update w.caller c .idle }
  | stop (c : Option Tid) (hc : w.MayCall c) :
      Trans w (.stopEventLoop c)
        { w with stopFlag := true, caller := Function.update w.caller c .stopping }
  | notify (c : Option Tid) (r : Record) :
      Trans w (.notify c) { w.write r with caller := Function.update w.caller c .idle }
  | notifyHandler (c : Option Tid) : Trans w (.notifyHandler c) (w.write .handler)
  | stopQueue : Trans w .stopQueue { w with queue := w.queue.stop }
  | checkStop (hi : w.caller none = .idle) (hl : w.loop = .check) (hs : w.stopFlag = true) :
      Trans w .loopNext { w with loop := .exited }
  | checkGo (hi : w.caller none = .idle) (hl : w.loop = .check) (hs : w.stopFlag = false) :
      Trans w .loopNext { w with loop := .timers }
  | timers (hi : w.caller none = .idle) (hl : w.loop = .timers) :
      Trans w .loopNext { w with loop := .enter }
  | handle (hi : w.caller none = .idle) (rs : List Reported) (hl : w.loop = .handlers rs)
      (p : List Record) (l : LoopPos ε)
      (h : (∃ rs', l = .handlers rs') ∨ ∃ k, l = .drain k) :
      Trans w .loopNext { w with pipe := p, loop := l }
  | drainEmpty (hi : w.caller none = .idle) (k : Return) (hl : w.loop = .drain k)
      (hq : w.queue.dwSize = 0) : Trans w .loopNext { w with loop := k.next }
  | drainSome (hi : w.caller none = .idle) (k : Return) (hl : w.loop = .drain k)
      (queue : CFSEventQueueBase ε) (batch : List ε) (n : BitVec 32)
      (hpop : w.queue.popPendingEvents maxGetOnce = some (queue, batch, n)) :
      Trans w .loopNext { w with queue, loop := .firing batch n k }
  | fire (hi : w.caller none = .idle) (e : ε) (es : List ε) (n : BitVec 32) (k : Return)
      (hl : w.loop = .firing (e :: es) n k) :
      Trans w .loopNext { w with fired := w.fired ++ [e], loop := .firing es n k }
  | firedSome (hi : w.caller none = .idle) (n : BitVec 32) (k : Return)
      (hl : w.loop = .firing [] n k) (hn : n ≠ 0) :
      Trans w .loopNext { w with loop := .renotify k }
  | firedAll (hi : w.caller none = .idle) (k : Return) (hl : w.loop = .firing [] 0 k) :
      Trans w .loopNext { w with loop := k.next }
  | renotify (hi : w.caller none = .idle) (k : Return) (hl : w.loop = .renotify k) :
      Trans w .loopNext { w.write .eventQueue with loop := k.next }
  | enterWait (timeout : Bool) (hl : w.loop = .enter) :
      Trans w (.enterWait timeout) { w with loop := .wait timeout }
  | skipWait (hl : w.loop = .enter) : Trans w .skipWait { w with loop := .drain .toLoop }
  | waitReturn (rs : List Reported) (timeout : Bool) (hl : w.loop = .wait timeout)
      (edge : Bool) : Trans w (.waitReturn rs) { w with loop := .handlers rs, edge := edge }
  | waitTimeout (hl : w.loop = .wait true) :
      Trans w .waitTimeout { w with loop := .drain .toLoop }
  | waitFailed (timeout : Bool) (hl : w.loop = .wait timeout) :
      Trans w .waitFailed { w with loop := .exited }

variable {w w' : World Tid ε} {a : Action Tid ε}

private theorem trans_of_loopNext (h : w.loopNext = some w') : Trans w .loopNext w' := by
  unfold loopNext at h
  split at h
  case isFalse => simp at h
  case isTrue hi =>
  split at h
  case h_1 hl =>
    obtain rfl := Option.some.inj h
    split
    case isTrue hs => exact .checkStop hi hl hs
    case isFalse hs => exact .checkGo hi hl (by simpa using hs)
  case h_2 hl =>
    obtain rfl := Option.some.inj h
    exact .timers hi hl
  case h_3 hl =>
    obtain rfl := Option.some.inj h
    exact .handle hi _ hl w.pipe _ (.inr ⟨_, rfl⟩)
  case h_4 rs hl =>
    obtain rfl := Option.some.inj h
    exact .handle hi _ hl w.pipe _ (.inl ⟨_, rfl⟩)
  case h_5 rs hl =>
    split at h <;> obtain rfl := Option.some.inj h
    case h_1 => exact .handle hi _ hl w.pipe _ (.inl ⟨_, rfl⟩)
    case h_2 => exact .handle hi _ hl _ _ (.inr ⟨_, rfl⟩)
    case h_3 => exact .handle hi _ hl _ _ (.inl ⟨_, rfl⟩)
    case h_4 => exact .handle hi _ hl _ _ (.inl ⟨_, rfl⟩)
  case h_6 k hl =>
    split at h <;> obtain rfl := Option.some.inj h
    case h_1 hpop =>
      exact .drainEmpty hi k hl (CFSEventQueueBase.popPendingEvents_eq_none_iff.mp hpop)
    case h_2 queue batch n hpop => exact .drainSome hi k hl queue batch n hpop
  case h_7 e es n k hl =>
    obtain rfl := Option.some.inj h
    exact .fire hi e es n k hl
  case h_8 n k hl =>
    obtain rfl := Option.some.inj h
    split
    case isTrue hn => exact .firedSome hi n k hl hn
    case isFalse hn =>
      obtain rfl : n = 0 := by simpa using hn
      exact .firedAll hi k hl
  case h_9 k hl =>
    obtain rfl := Option.some.inj h
    exact .renotify hi k hl
  all_goals simp at h

/-- **Inversion.** Every step is one of the transitions. -/
theorem trans_of_step (h : step w a = some w') : Trans w a w' := by
  cases a with
  | postEvent c e =>
    simp only [step, postEvent] at h
    split at h
    case isFalse => simp at h
    case isTrue hc =>
    obtain rfl := Option.some.inj h
    cases hs : w.queue.isStopped with
    | true =>
      -- the caller was idle and stays so
      have hidle : Function.update w.caller c .idle = w.caller := by
        rw [← hc.1, Function.update_eq_self]
      rw [CFSEventQueueBase.postEventWithOldSize_of_stopped hs]
      simpa [hidle, CAWResult.succeeded] using Trans.postRejected c e
    | false =>
      rw [CFSEventQueueBase.postEventWithOldSize_of_not_stopped hs]
      by_cases hq : w.queue.dwSize = 0
      · dsimp only
        rw [if_pos ⟨CAWResult.succeeded_iff.mpr rfl, hq⟩]
        exact .postFirst c e hc hq
      · dsimp only
        rw [if_neg fun h => hq h.2]
        exact .postMore c e hc hq
  | stopEventLoop c =>
    simp only [step, stopEventLoop] at h
    split at h
    case isFalse => simp at h
    case isTrue hc =>
    obtain rfl := Option.some.inj h
    exact .stop c hc
  | notify c =>
    simp only [step, notify] at h
    split at h
    case h_1 => simp at h
    case h_2 => obtain rfl := Option.some.inj h; exact .notify c _
    case h_3 => obtain rfl := Option.some.inj h; exact .notify c _
  | notifyHandler c =>
    simp only [step, notifyHandler] at h
    split at h
    case isFalse => simp at h
    case isTrue =>
    obtain rfl := Option.some.inj h
    exact .notifyHandler c
  | stopQueue =>
    obtain rfl := Option.some.inj h
    exact .stopQueue
  | loopNext => exact trans_of_loopNext h
  | enterWait timeout =>
    simp only [step, enterWait] at h
    split at h
    case h_2 => simp at h
    case h_1 hl => obtain rfl := Option.some.inj h; exact .enterWait timeout hl
  | skipWait =>
    simp only [step, skipWait] at h
    split at h
    case h_2 => simp at h
    case h_1 hl => obtain rfl := Option.some.inj h; exact .skipWait hl
  | waitReturn rs =>
    simp only [step, waitReturn] at h
    split at h
    case h_2 => simp at h
    case h_1 hl =>
    split at h
    case isFalse => simp at h
    case isTrue => obtain rfl := Option.some.inj h; exact .waitReturn rs _ hl _
  | waitTimeout =>
    simp only [step, waitTimeout] at h
    split at h
    case h_2 => simp at h
    case h_1 hl => obtain rfl := Option.some.inj h; exact .waitTimeout hl
  | waitFailed =>
    simp only [step, waitFailed] at h
    split at h
    case h_2 => simp at h
    case h_1 hl => obtain rfl := Option.some.inj h; exact .waitFailed _ hl

/-! ### The invariant -/

/-- Pending events and a set stop flag are seen by the loop before it waits again, or they
are announced. -/
structure WakeInv (w : World Tid ε) : Prop where
  calls : w.caller none ≠ .idle → w.loop.inHandler = true
  queue : w.queue.dwSize ≠ 0 → w.loop.Drains ∨ w.edge = true ∨ ∃ c, w.caller c = .posted
  stop : w.stopFlag = true → w.loop.Checks ∨ w.edge = true ∨ ∃ c, w.caller c = .stopping

omit [DecidableEq Tid] in
theorem wakeInv_init : WakeInv (init : World Tid ε) := by
  constructor <;> simp [init]

omit [DecidableEq Tid] in
/-- A call that starts is not one that is under way. -/
theorem MayCall.ne {c c' : Option Tid} (hc : w.MayCall c) (hc' : w.caller c' ≠ .idle) :
    c' ≠ c := by
  rintro rfl
  exact hc' hc.1

/-- What a call under way announces stays announced when another call starts. -/
private theorem announced_update {c : Option Tid} (hc : w.MayCall c) {p : CallPos}
    (hp : p ≠ .idle) (v : CallPos) {P Q : Prop} (h : P ∨ Q ∨ ∃ c', w.caller c' = p) :
    P ∨ Q ∨ ∃ c', Function.update w.caller c v c' = p := by
  rcases h with h | h | ⟨c', hc'⟩
  · exact .inl h
  · exact .inr (.inl h)
  · have hne : c' ≠ c := hc.ne (by rwa [hc'])
    exact .inr (.inr ⟨c', by rw [Function.update_of_ne hne, hc']⟩)

theorem WakeInv.calls_trans (hw : WakeInv w) (h : Trans w a w')
    (hn : w'.caller none ≠ .idle) : w'.loop.inHandler = true := by
  have hcalls := hw.calls
  have hstart : ∀ {c : Option Tid} {v}, w.MayCall c →
      Function.update w.caller c v none ≠ .idle → w.loop.inHandler = true := by
    intro c v hc hne
    cases c with
    | none => exact hc.2 rfl
    | some t => exact hcalls (by simpa using hne)
  cases h with
  | postFirst c e hc hq => exact hstart hc hn
  | postMore c e hc hq => exact hstart hc hn
  | stop c hc => exact hstart hc hn
  | notify c r =>
    cases c with
    | none => simp at hn
    | some t => exact hcalls (by simpa using hn)
  | enterWait timeout hl =>
    have := hcalls hn
    simp [hl, LoopPos.inHandler] at this
  | _ => simp_all [write, LoopPos.inHandler]

theorem WakeInv.queue_trans (hw : WakeInv w) (h : Trans w a w') (hq' : w'.queue.dwSize ≠ 0) :
    w'.loop.Drains ∨ w'.edge = true ∨ ∃ c, w'.caller c = .posted := by
  cases h with
  | postFirst c e hc hq => exact .inr (.inr ⟨c, by simp⟩)
  | postMore c e hc hq => exact announced_update hc (by simp) _ (hw.queue hq)
  | stop c hc => exact announced_update hc (by simp) _ (hw.queue hq')
  | notify c r => exact .inr (.inl rfl)
  | notifyHandler c => exact .inr (.inl rfl)
  | handle hi rs hl p l h =>
    rcases h with ⟨rs', rfl⟩ | ⟨k, rfl⟩ <;> exact .inl trivial
  | drainEmpty hi k hl hq => exact absurd hq hq'
  | drainSome hi k hl queue batch n hpop =>
    -- what the pop left behind is the remainder the loop will announce
    obtain ⟨-, -, rfl⟩ := CFSEventQueueBase.popPendingEvents_append hpop
    exact .inl (.inl hq')
  | firedSome hi n k hl hn => exact .inl trivial
  | firedAll hi k hl =>
    have hqueue := hw.queue hq'
    rw [hl] at hqueue
    exact hqueue.imp_left fun hd => Return.drains_next (by simpa [LoopPos.Drains] using hd)
  | renotify hi k hl => exact .inr (.inl rfl)
  | skipWait hl => exact .inl trivial
  | waitReturn rs timeout hl edge => exact .inl trivial
  | waitTimeout hl => exact .inl trivial
  | _ => have hqueue := hw.queue hq'; simp_all [LoopPos.Drains]

theorem WakeInv.stop_trans (hw : WakeInv w) (h : Trans w a w') (hs' : w'.stopFlag = true) :
    w'.loop.Checks ∨ w'.edge = true ∨ ∃ c, w'.caller c = .stopping := by
  cases h with
  | postFirst c e hc hq => exact announced_update hc (by simp) _ (hw.stop hs')
  | postMore c e hc hq => exact announced_update hc (by simp) _ (hw.stop hs')
  | stop c hc => exact .inr (.inr ⟨c, by simp⟩)
  | notify c r => exact .inr (.inl rfl)
  | notifyHandler c => exact .inr (.inl rfl)
  | checkGo hi hl hs => exact absurd (hs.symm.trans hs') nofun
  | handle hi rs hl p l h =>
    rcases h with ⟨rs', rfl⟩ | ⟨k, rfl⟩ <;> exact .inl trivial
  | drainEmpty hi k hl hq => exact .inl k.checks_next
  | firedAll hi k hl => exact .inl k.checks_next
  | renotify hi k hl => exact .inl k.checks_next
  | timers hi hl => have hstop := hw.stop hs'; simp_all [LoopPos.Checks]
  | enterWait timeout hl => have hstop := hw.stop hs'; simp_all [LoopPos.Checks]
  | postRejected c e => exact hw.stop hs'
  | stopQueue => exact hw.stop hs'
  | _ => exact .inl trivial

theorem WakeInv.trans (hw : WakeInv w) (h : Trans w a w') : WakeInv w' where
  calls := hw.calls_trans h
  queue := hw.queue_trans h
  stop := hw.stop_trans h

theorem sizeOk_trans (hw : w.queue.SizeOk) (h : Trans w a w') : w'.queue.SizeOk := by
  cases h with
  | postFirst c e hc hq => exact hw.append e
  | postMore c e hc hq => exact hw.append e
  | drainSome hi k hl queue batch n hpop => exact hw.popPendingEvents hpop
  | _ => exact hw

/-! ### The results -/

/-- **No lost wake-up.** In every reachable state in which the loop is blocked in
`vos_epoll_wait`, with or without a timeout: if events are pending, and not exactly a multiple of
`2 ^ 32` of them, the notification is still to be reported or a thread is between its post and its
`Notify`; and likewise if the stop flag is set. -/
theorem wakeUp_of_wait (h : Reachable step (init : World Tid ε) w) (timeout : Bool)
    (hl : w.loop = .wait timeout) :
    (w.queue.events.length % 2 ^ 32 ≠ 0 → w.edge = true ∨ ∃ t, w.caller (some t) = .posted) ∧
      (w.stopFlag = true → w.edge = true ∨ ∃ t, w.caller (some t) = .stopping) := by
  have hsize : w.queue.SizeOk := Reach.induct (I := fun s => s.queue.SizeOk) h rfl
    fun s s' a hs _ hstep => sizeOk_trans hs (trans_of_step hstep)
  have hI : WakeInv w := Reach.induct h wakeInv_init
    fun s s' a hs _ hstep => hs.trans (trans_of_step hstep)
  -- a blocked loop is in no call of its own
  have hidle : w.caller none = .idle := by
    by_contra hne
    have := hI.calls hne
    simp [hl, LoopPos.inHandler] at this
  have hthread : ∀ {p : CallPos}, p ≠ .idle → (∃ c, w.caller c = p) →
      ∃ t, w.caller (some t) = p := by
    rintro p hp ⟨_ | t, hc⟩
    · exact absurd (hc.symm.trans hidle) hp
    · exact ⟨t, hc⟩
  refine ⟨fun hq => ?_, fun hs => ?_⟩
  · have hqueue := hI.queue (mt hsize.dwSize_eq_zero_iff.mp hq)
    simp only [hl, LoopPos.Drains, false_or] at hqueue
    exact hqueue.imp_right (hthread (by simp))
  · have hstop := hI.stop hs
    simp only [hl, LoopPos.Checks, false_or] at hstop
    exact hstop.imp_right (hthread (by simp))

/-- The loop is blocked; thread `0` has posted and notified, thread `1` has posted to the
queue that is no longer empty, thread `2` has set the stop flag. -/
theorem wakeUp_of_wait_three_callers :
    ∃ w, Reachable step (init : World ℕ ℕ) w ∧ w.loop = .wait false ∧ w.queue.events = [7, 8] ∧
      w.stopFlag = true ∧
      (w.queue.events.length % 2 ^ 32 ≠ 0 → w.edge = true ∨ ∃ t, w.caller (some t) = .posted) ∧
      (w.stopFlag = true → w.edge = true ∨ ∃ t, w.caller (some t) = .stopping) := by
  have hrun : Reachable step (init : World ℕ ℕ) _ := reachable_of_exec
    [.loopNext, .loopNext, .enterWait false, .postEvent (some 0) 7, .notify (some 0),
      .postEvent (some 1) 8, .stopEventLoop (some 2)] rfl
  exact ⟨_, hrun, rfl, rfl, rfl, wakeUp_of_wait hrun false rfl⟩

/-- **The queue is FIFO.** Every accepted event is fired once, in the order of the posts, or
is still in the current batch or in the queue, whatever the batches are. -/
theorem accepted_eq_fired_append_pending (h : Reachable step (init : World Tid ε) w) :
    w.accepted = w.fired ++ w.loop.batch ++ w.queue.events := by
  refine Reach.induct (I := fun s => s.accepted = s.fired ++ s.loop.batch ++ s.queue.events) h rfl
    fun s s' a hs _ hstep => ?_
  cases trans_of_step hstep with
  | handle hi rs hl p l h =>
    rcases h with ⟨rs', rfl⟩ | ⟨k, rfl⟩ <;> simpa [hl, LoopPos.batch] using hs
  | drainEmpty hi k hl hq =>
    rw [Return.batch_next]
    simpa [hl, LoopPos.batch] using hs
  | drainSome hi k hl queue batch n hpop =>
    obtain ⟨happend, -, -⟩ := CFSEventQueueBase.popPendingEvents_append hpop
    simpa [hl, LoopPos.batch, ← happend] using hs
  | firedAll hi k hl =>
    rw [Return.batch_next]
    simpa [hl, LoopPos.batch] using hs
  | renotify hi k hl =>
    rw [Return.batch_next]
    simpa [write, hl, LoopPos.batch] using hs
  | _ => simp_all [write, LoopPos.batch, CFSEventQueueBase.append, CFSEventQueueBase.stop]

/-! ### A size that is zero again -/

/-- A thread has posted `events` and has notified for the first of them; the loop has not run. -/
def filled (events : List Unit) (dwSize : BitVec 32) : World Unit Unit :=
  ⟨⟨events, dwSize, false⟩, false, [.eventQueue], true, fun _ => .idle, .check, events, []⟩

theorem step_filled (events : List Unit) {dwSize : BitVec 32} (hsize : dwSize ≠ 0) :
    step (filled events dwSize) (.postEvent (some ()) ()) =
      some (filled (events ++ [()]) (dwSize + 1)) := by
  have hidle : Function.update (fun _ : Option Unit => CallPos.idle) (some ())
      (if CAWResult.succeeded .ok ∧ dwSize = 0 then .posted else .idle) = fun _ => .idle := by
    rw [if_neg fun h => hsize h.2, Function.update_eq_self]
  rw [step, postEvent, if_pos ⟨rfl, nofun⟩]
  exact congrArg (fun caller => some { filled (events ++ [()]) (dwSize + 1) with caller }) hidle

theorem reachable_filled (n : ℕ) (hn : n < 2 ^ 32) :
    Reachable step init
      (filled (List.replicate (n + 1) ()) (BitVec.ofNat 32 (n + 1))) := by
  induction n with
  | zero =>
    refine reachable_of_exec [.postEvent (some ()) (), .notify (some ())] ?_
    have hidle : Function.update (Function.update (fun _ : Option Unit => CallPos.idle) (some ())
        .posted) (some ()) .idle = fun _ => .idle := by
      rw [Function.update_idem, Function.update_eq_self]
    exact congrArg (fun caller => some { filled [()] 1 with caller }) hidle
  | succ n ih =>
    have hsize : BitVec.ofNat 32 (n + 1) ≠ 0 := by
      intro hzero
      have hmod := congrArg BitVec.toNat hzero
      rw [BitVec.toNat_ofNat, Nat.mod_eq_of_lt hn] at hmod
      exact absurd hmod (Nat.succ_ne_zero n)
    have hstep := step_filled (List.replicate (n + 1) ()) hsize
    rw [← List.replicate_succ'] at hstep
    rw [BitVec.ofNat_add (n + 1) 1]
    exact (ih (Nat.lt_of_succ_lt hn)).tail trivial hstep

/-- The notification is reported and both drains of the round find a size of zero. -/
theorem reachable_wait_filled (events : List Unit) :
    Reachable step (filled events 0) { filled events 0 with
      pipe := [], edge := false, loop := .wait false } :=
  reachable_of_exec [.loopNext, .loopNext, .enterWait false, .waitReturn [.notifyPipe], .loopNext,
    .loopNext, .loopNext, .loopNext, .loopNext, .loopNext, .enterWait false] rfl

/-- **A lost wake-up.** The loop is blocked in `vos_epoll_wait` with `2 ^ 32` events pending; no
notification is to be reported and no thread is about to notify. -/
theorem exists_wait_unannounced :
    ∃ w, Reachable step (init : World Unit Unit) w ∧ w.loop = .wait false ∧
      w.queue.events ≠ [] ∧ ¬ (w.edge = true ∨ ∃ t, w.caller (some t) = .posted) := by
  have hfull := reachable_filled (2 ^ 32 - 1) (by decide)
  have hlength : 2 ^ 32 - 1 + 1 = 2 ^ 32 := rfl
  have hzero : BitVec.ofNat 32 (2 ^ 32) = 0 := rfl
  rw [hlength, hzero] at hfull
  refine ⟨_, hfull.trans (reachable_wait_filled (List.replicate (2 ^ 32) ())), rfl, ?_, ?_⟩
  · exact List.replicate_succ_ne_nil
  · rintro (hedge | ⟨t, hposted⟩)
    · exact absurd hedge Bool.false_ne_true
    · exact absurd hposted nofun

end World

end VosStack.Reactor
