import VosStack.Reactor.EventFates
import VosStack.Reactor.Handlers
import VosStack.Reactor.LostWakeUp
import VosStack.Reactor.Synchronous

/-!
# One queue, one pipe

The event queue of a reactor is in three models. `Reactor.EventQueue` has the calls made on the
events, which it numbers in the order of the posts. `Reactor.EventLoop` has the wake-ups of the
loop, and `Reactor.Synchronous` the senders that wait. The last two are shown to use the queue of
the first (`Numbers`): each post, pop and firing of theirs is one of the event queue, so that their
runs are followed by its runs (`reachable_of_loop`, `reachable_of_senders`), the second one until
the loop has ended and the queue is being closed.

The notify pipe is in the event loop with the kinds of its records, and in `Reactor.Handlers` with
the records as they are written. `NotifyHandler` writes the same record in both, and `OnInput` of
the pipe does the same with it (`notifyHandler_agrees`, `notifyInput_agrees`).
-/

namespace VosStack.EventQueue

open Transition CFSEventQueueBase

/-! ### Numbered events -/

/-- The queue `q`, the popped events `batch` and the events `fired` are those of `v`, where `f` says
which event has which number. -/
structure Numbers {ε : Type*} (f : ℕ → Option ε) (q : CFSEventQueueBase ε) (batch fired : List ε)
    (v : World) : Prop where
  queue : v.queue.map f = q.map some
  popped : v.popped.map f = batch.map some
  fired : v.fired.map f = fired.map some
  destoryed : v.destoryed = false
  staged : ∃ stage, Staged v stage

section numbers

variable {ε : Type*} {f : ℕ → Option ε} {q q' : CFSEventQueueBase ε} {batch fired : List ε}
  {v : World}

theorem numbers_init (f : ℕ → Option ε) : Numbers f ⟨[], 0, false⟩ [] [] init :=
  ⟨rfl, rfl, rfl, rfl, _, staged_init⟩

theorem Numbers.isStopped (h : Numbers f q batch fired v) : v.queue.isStopped = q.isStopped :=
  congrArg CFSEventQueueBase.isStopped h.queue

/-- The next number is not in use. -/
theorem Numbers.update (h : Numbers f q batch fired v) (o : Option ε) :
    Numbers (Function.update f v.next o) q batch fired v := by
  obtain ⟨stage, hstaged⟩ := h.staged
  have hold : ∀ n ∈ v.line, Function.update f v.next o n = f n := fun n hn =>
    Function.update_of_ne (Nat.ne_of_lt (hstaged.born n hn)) _ _
  refine ⟨(map_congr fun n hn => ?_).trans h.queue,
    (List.map_congr_left fun n hn => ?_).trans h.popped,
    (List.map_congr_left fun n hn => ?_).trans h.fired, h.destoryed, h.staged⟩
  · exact hold n (List.mem_append_right _ (List.mem_append_right _ hn))
  · exact hold n (List.mem_append_right _ (List.mem_append_left _ hn))
  · exact hold n (List.mem_append_left _ hn)

/-- A post gets the next number. -/
theorem Numbers.postEvent (h : Numbers f q batch fired v) (e : ε) :
    ∃ f' v', step v .postEvent = some v' ∧ v'.firing = v.firing ∧
      Numbers f' (q.postEvent e).1 batch fired v' := by
  have hnew := h.update (some e)
  obtain ⟨stage, hstaged⟩ := h.staged
  have hopen : ¬ v.destoryed = true := by rw [h.destoryed]; exact Bool.false_ne_true
  cases hstop : q.isStopped with
  | true =>
    have hstep : step v .postEvent = some { v with
        next := v.next + 1
        log := v.log ++ [.destory v.next .rejected] } := by
      rw [step, if_neg hopen, postEvent_of_stopped (h.isStopped.trans hstop)]
      rfl
    rw [postEvent_of_stopped hstop]
    refine ⟨Function.update f v.next (some e), _, hstep, rfl, hnew.queue, hnew.popped, ?_,
      h.destoryed, staged_step hstaged hstep⟩
    rw [World.fired, List.filterMap_append]
    exact (congrArg _ (List.append_nil _)).trans hnew.fired
  | false =>
    have hstep : step v .postEvent = some { v with
        queue := v.queue.append v.next
        next := v.next + 1 } := by
      rw [step, if_neg hopen, postEvent_of_not_stopped (h.isStopped.trans hstop)]
      rfl
    rw [postEvent_of_not_stopped hstop]
    refine ⟨Function.update f v.next (some e), _, hstep, rfl, ?_, hnew.popped, hnew.fired,
      h.destoryed, staged_step hstaged hstep⟩
    rw [append_map, append_map, hnew.queue, Function.update_self]

theorem Numbers.stop (h : Numbers f q batch fired v) :
    Numbers f q.stop batch fired { v with queue := v.queue.stop } := by
  obtain ⟨stage, hstaged⟩ := h.staged
  refine ⟨?_, h.popped, h.fired, h.destoryed, staged_step hstaged (a := .stop) rfl⟩
  exact congrArg CFSEventQueueBase.stop h.queue

/-- A pop takes the same events. -/
theorem Numbers.popPendingEvents (h : Numbers f q batch fired v) {aMaxCount dwRemain : BitVec 32}
    {aEvents : List ε} (hpop : q.popPendingEvents aMaxCount = some (q', aEvents, dwRemain)) :
    ∃ v', step v (.popPendingEvents aMaxCount) = some v' ∧ v'.firing = v.firing ∧
      Numbers f q' (batch ++ aEvents) fired v' := by
  obtain ⟨stage, hstaged⟩ := h.staged
  have hopen : ¬ v.destoryed = true := by rw [h.destoryed]; exact Bool.false_ne_true
  have hmap := popPendingEvents_map f v.queue aMaxCount
  rw [h.queue, popPendingEvents_map, hpop] at hmap
  obtain ⟨⟨vq, vs, r⟩, hvpop, heq⟩ := Option.map_eq_some_iff.mp hmap.symm
  obtain ⟨hqueue, hevents, -⟩ : vq.map f = q'.map some ∧ vs.map f = aEvents.map some ∧
      r = dwRemain := by simpa only [Prod.mk.injEq] using heq
  have hstep : step v (.popPendingEvents aMaxCount) =
      some { v with queue := vq, popped := v.popped ++ vs } := by
    rw [step, if_neg hopen, hvpop]
  refine ⟨_, hstep, rfl, hqueue, ?_, h.fired, h.destoryed, staged_step hstaged hstep⟩
  rw [List.map_append, List.map_append, h.popped, hevents]

/-- The next event is fired. -/
theorem Numbers.fire {e : ε} (h : Numbers f q (e :: batch) fired v) (hfiring : v.firing = none) :
    ∃ v', step v .fire = some v' ∧ v'.firing.isSome ∧
      Numbers f q batch (fired ++ [e]) v' := by
  obtain ⟨stage, hstaged⟩ := h.staged
  obtain ⟨n, popped, hpopped, hn, hrest⟩ := List.map_eq_cons_iff.mp h.popped
  have hstep : step v .fire =
      some { v with popped, firing := some n, log := v.log ++ [.fire n] } := by
    rw [step, hfiring, hpopped]
  refine ⟨_, hstep, rfl, h.queue, hrest, ?_, h.destoryed, staged_step hstaged hstep⟩
  have hlast : List.map f [n] = List.map some [e] := congrArg (fun o => [o]) hn
  rw [World.fired, List.filterMap_append, List.map_append, List.map_append]
  exact congrArg₂ _ h.fired hlast

/-- The event that was fired is destroyed. -/
theorem Numbers.destorySelf (h : Numbers f q batch fired v) (hfiring : v.firing.isSome) :
    ∃ v', step v .destorySelf = some v' ∧ v'.firing = none ∧ Numbers f q batch fired v' := by
  obtain ⟨stage, hstaged⟩ := h.staged
  obtain ⟨n, hn⟩ := Option.isSome_iff_exists.mp hfiring
  have hstep : step v .destorySelf =
      some { v with firing := none, log := v.log ++ [.destory n .processed] } := by
    rw [step, hn]
  refine ⟨_, hstep, rfl, h.queue, h.popped, ?_, h.destoryed, staged_step hstaged hstep⟩
  rw [World.fired, List.filterMap_append]
  exact (congrArg _ (List.append_nil _)).trans h.fired

/-- `ProcessOneEvent`. -/
theorem Numbers.processOneEvent {e : ε} (h : Numbers f q (e :: batch) fired v)
    (hfiring : v.firing = none) :
    ∃ v', Reachable step v v' ∧ v'.firing = none ∧ Numbers f q batch (fired ++ [e]) v' := by
  obtain ⟨v₁, hfire, hsome, h₁⟩ := h.fire hfiring
  obtain ⟨v₂, hdestory, hnone, h₂⟩ := h₁.destorySelf hsome
  exact ⟨v₂, .tail (.tail .refl trivial hfire) trivial hdestory, hnone, h₂⟩

end numbers

end VosStack.EventQueue

/-! ### The event loop -/

namespace VosStack.Reactor.World

open Transition
open EventQueue (Numbers)

variable {Tid ε : Type*} [DecidableEq Tid] {w w' : World Tid ε} {a : Action Tid ε}
  {v : EventQueue.World}

/-- `v` is the event queue of the reactor. -/
def HasQueue (w : World Tid ε) (v : EventQueue.World) : Prop :=
  v.firing = none ∧ ∃ f, Numbers f w.queue w.loop.batch w.fired v

omit [DecidableEq Tid] in
/-- A step that does not touch the events. -/
theorem HasQueue.same (h : w.HasQueue v) (hqueue : w'.queue = w.queue)
    (hbatch : w'.loop.batch = w.loop.batch) (hfired : w'.fired = w.fired) :
    ∃ v', Reachable EventQueue.step v v' ∧ w'.HasQueue v' := by
  refine ⟨v, .refl, h.1, ?_⟩
  rw [hqueue, hbatch, hfired]
  exact h.2

theorem HasQueue.postEvent (h : w.HasQueue v) {c : Option Tid} {e : ε}
    (hs : step w (.postEvent c e) = some w') :
    ∃ v', Reachable EventQueue.step v v' ∧ w'.HasQueue v' := by
  obtain ⟨hnone, f, hnum⟩ := h
  obtain ⟨f', v', hstep, hfiring, hnum'⟩ := hnum.postEvent e
  rw [step, World.postEvent] at hs
  obtain ⟨-, ⟨rfl⟩⟩ := Option.ite_none_right_eq_some.mp hs
  exact ⟨v', .tail .refl trivial hstep, hfiring.trans hnone, f', hnum'⟩

/-- Each step of the reactor does nothing to the event queue, or is a call of it. -/
theorem HasQueue.step (h : w.HasQueue v) (hs : step w a = some w') :
    ∃ v', Reachable EventQueue.step v v' ∧ w'.HasQueue v' := by
  have hbatch {l l' : LoopPos ε} (hl : w.loop = l) (heq : l'.batch = l.batch) :
      l'.batch = w.loop.batch := by rw [heq, hl]
  cases trans_of_step hs with
  | postRejected c e => exact h.postEvent hs
  | postFirst c e hc hq => exact h.postEvent hs
  | postMore c e hc hq => exact h.postEvent hs
  | stop c hc => exact h.same rfl rfl rfl
  | notify c r => exact h.same rfl rfl rfl
  | notifyHandler c => exact h.same rfl rfl rfl
  | stopQueue =>
    obtain ⟨hnone, f, hnum⟩ := h
    exact ⟨_, .tail .refl trivial (a := .stop) rfl, hnone, f, hnum.stop⟩
  | checkStop hi hl hs => exact h.same rfl (hbatch hl rfl) rfl
  | checkGo hi hl hs => exact h.same rfl (hbatch hl rfl) rfl
  | timers hi hl => exact h.same rfl (hbatch hl rfl) rfl
  | handle hi rs hl p l hpos =>
    refine h.same rfl (hbatch hl ?_) rfl
    rcases hpos with ⟨rs', rfl⟩ | ⟨k, rfl⟩ <;> rfl
  | drainEmpty hi k hl hq => exact h.same rfl (hbatch hl k.batch_next) rfl
  | drainSome hi k hl queue batch n hpop =>
    obtain ⟨hnone, f, hnum⟩ := h
    obtain ⟨v', hstep, hfiring, hnum'⟩ := hnum.popPendingEvents hpop
    rw [hl] at hnum'
    exact ⟨v', .tail .refl trivial hstep, hfiring.trans hnone, f, hnum'⟩
  | fire hi e es n k hl =>
    obtain ⟨hnone, f, hnum⟩ := h
    rw [hl] at hnum
    obtain ⟨v', hreach, hfiring, hnum'⟩ := hnum.processOneEvent hnone
    exact ⟨v', hreach, hfiring, f, hnum'⟩
  | firedSome hi n k hl hn => exact h.same rfl (hbatch hl rfl) rfl
  | firedAll hi k hl => exact h.same rfl (hbatch hl k.batch_next) rfl
  | renotify hi k hl => exact h.same rfl (hbatch hl k.batch_next) rfl
  | enterWait timeout hl => exact h.same rfl (hbatch hl rfl) rfl
  | skipWait hl => exact h.same rfl (hbatch hl rfl) rfl
  | waitReturn rs timeout hl edge => exact h.same rfl (hbatch hl rfl) rfl
  | waitTimeout hl => exact h.same rfl (hbatch hl rfl) rfl
  | waitFailed timeout hl => exact h.same rfl (hbatch hl rfl) rfl

/-- **The loop runs the event queue.** A run of the reactor is followed by a run of the queue. -/
theorem reachable_of_loop (h : Reachable step (init : World Tid ε) w) :
    ∃ v, Reachable EventQueue.step EventQueue.init v ∧ w.HasQueue v :=
  h.simulate (R := HasQueue) ⟨rfl, fun _ => none, EventQueue.numbers_init _⟩
    fun _ _ _ _ hr _ hs => hr.step hs

end VosStack.Reactor.World

/-! ### The senders of synchronous events -/

namespace VosStack.Synchronous

open Transition
open EventQueue (Numbers CFSEventQueueBase)

/-- The popped events, and whether one is fired and not yet destroyed; none while the queue is
closed. -/
def Pc.place : Pc → Option (List Event × Bool)
  | .idle => some ([], false)
  | .events rest => some (rest, false)
  | .fired _ rest => some (rest, true)
  | .destroy _ _ rest => some (rest, true)
  | .close | .closeDestroy _ _ | .clear => none

/-- `v` is the event queue of the senders. -/
def World.HasQueue (w : World) (v : EventQueue.World) : Prop :=
  ∃ rest fires, w.pc.place = some (rest, fires) ∧ v.firing.isSome = fires ∧
    ∃ f fired, Numbers f w.queue rest fired v

namespace World

variable {w w' : World} {v : EventQueue.World}

/-- A state of the queue after some calls, that is the queue of `w'`. -/
def Follows (v : EventQueue.World) (w' : World) : Prop :=
  ∃ v', Reachable EventQueue.step v v' ∧ w'.HasQueue v'

/-- The queue and its thread are not concerned. -/
theorem HasQueue.same (h : w.HasQueue v) (hqueue : w'.queue = w.queue)
    (hplace : w'.pc.place = w.pc.place) : Follows v w' := by
  obtain ⟨rest, fires, hrest, hfires, f, fired, hnum⟩ := h
  exact ⟨v, .refl, rest, fires, hplace.trans hrest, hfires, f, fired, hqueue ▸ hnum⟩

/-- An event is posted, or rejected. -/
theorem HasQueue.postEvent (h : w.HasQueue v) (e : Event)
    (hqueue : w'.queue = (w.queue.postEvent e).1) (hpc : w'.pc = w.pc) : Follows v w' := by
  obtain ⟨rest, fires, hrest, hfires, f, fired, hnum⟩ := h
  obtain ⟨f', v', hstep, hfiring, hnum'⟩ := hnum.postEvent e
  refine ⟨v', .tail .refl trivial hstep, rest, fires, hpc ▸ hrest, ?_, f', fired, hqueue ▸ hnum'⟩
  rw [hfiring]
  exact hfires

/-- A rejected post leaves the queue as it is. -/
theorem postEvent_of_failed {q : CFSEventQueueBase Event} {e : Event}
    (h : (q.postEvent e).2.failed = true) : (q.postEvent e).1 = q := by
  cases hstop : q.isStopped with
  | true => rw [CFSEventQueueBase.postEvent_of_stopped hstop]
  | false =>
    rw [CFSEventQueueBase.postEvent_of_not_stopped hstop] at h
    exact absurd h Bool.false_ne_true

/-- `SendEvent` goes on as in `w₁` when its post is rejected, and as in `w₂` when it is not. -/
theorem HasQueue.posted (h : w.HasQueue v) (e : Event) {w₁ w₂ : World}
    (hs : (if (w.queue.postEvent e).2.failed then some w₁
      else some { w₂ with queue := (w.queue.postEvent e).1 }) = some w')
    (hqueue : w₁.queue = w.queue) (hpc₁ : w₁.pc = w.pc) (hpc₂ : w₂.pc = w.pc) : Follows v w' := by
  split at hs
  · next hfailed =>
    cases hs
    exact h.postEvent e (hqueue.trans (postEvent_of_failed hfailed).symm) hpc₁
  · cases hs
    exact h.postEvent e rfl hpc₂

theorem HasQueue.post (h : w.HasQueue v) {k : ℕ} (hs : w.post k = some w') : Follows v w' := by
  rw [World.post] at hs
  obtain ⟨-, hs⟩ := Option.ite_none_right_eq_some.mp hs
  exact h.posted (.wrapper k) hs rfl rfl rfl

theorem HasQueue.repost (h : w.HasQueue v) {k : ℕ} (hs : w.repost k = some w') : Follows v w' := by
  rw [World.repost] at hs
  obtain ⟨-, hs⟩ := Option.ite_none_right_eq_some.mp hs
  exact h.posted (.wrapper k) hs rfl rfl rfl

theorem HasQueue.stop (h : w.HasQueue v) : Follows v { w with queue := w.queue.stop } := by
  obtain ⟨rest, fires, hrest, hfires, f, fired, hnum⟩ := h
  exact ⟨_, .tail .refl trivial (a := .stop) rfl, rest, fires, hrest, hfires, f, fired, hnum.stop⟩

theorem HasQueue.pop (h : w.HasQueue v) (hs : w.pop = some w') : Follows v w' := by
  obtain ⟨rest, fires, hrest, hfires, f, fired, hnum⟩ := h
  rw [World.pop] at hs
  obtain ⟨⟨hpc, -⟩, hs⟩ := Option.ite_none_right_eq_some.mp hs
  rw [hpc] at hrest
  obtain ⟨rfl, rfl⟩ := Prod.mk.inj (Option.some.inj hrest)
  split at hs
  · contradiction
  · next queue events _ hpop =>
    cases hs
    obtain ⟨v', hstep, hfiring, hnum'⟩ := hnum.popPendingEvents hpop
    refine ⟨v', .tail .refl trivial hstep, events, false, rfl, ?_, f, fired, hnum'⟩
    rw [hfiring]
    exact hfires

theorem HasQueue.fire (h : w.HasQueue v) {rv : CAWResult} (hs : w.fire rv = some w') :
    Follows v w' := by
  obtain ⟨rest, fires, hrest, hfires, f, fired, hnum⟩ := h
  rw [World.fire] at hs
  split at hs
  · next k rest' hpc =>
    cases hs
    rw [hpc] at hrest
    obtain ⟨rfl, rfl⟩ := Prod.mk.inj (Option.some.inj hrest)
    obtain ⟨v', hstep, hfiring, hnum'⟩ :=
      hnum.fire (Option.not_isSome_iff_eq_none.mp (hfires ▸ Bool.false_ne_true))
    exact ⟨v', .tail .refl trivial hstep, rest', true, rfl, hfiring, f, _, hnum'⟩
  · contradiction

theorem HasQueue.handleOther (h : w.HasQueue v) (hs : w.handleOther = some w') :
    Follows v w' := by
  obtain ⟨rest, fires, hrest, hfires, f, fired, hnum⟩ := h
  rw [World.handleOther] at hs
  split at hs
  · next rest' hpc =>
    cases hs
    rw [hpc] at hrest
    obtain ⟨rfl, rfl⟩ := Prod.mk.inj (Option.some.inj hrest)
    obtain ⟨v', hreach, hfiring, hnum'⟩ :=
      hnum.processOneEvent (Option.not_isSome_iff_eq_none.mp (hfires ▸ Bool.false_ne_true))
    refine ⟨v', hreach, rest', false, rfl, ?_, f, _, hnum'⟩
    rw [hfiring]
    rfl
  · contradiction

/-- The event is destroyed for the queue when its `OnDestorySelf` returns. -/
theorem HasQueue.destroyAct (h : w.HasQueue v) (hs : w.destroyAct = some w') : Follows v w' := by
  rw [World.destroyAct] at hs
  split at hs
  · next k e rest' hpc =>
    cases hs
    cases hend : ((w.calls k).obj.onDestorySelf e).2 with
    | some e' => exact h.same rfl (by rw [hpc]; rfl)
    | none =>
      obtain ⟨rest, fires, hrest, hfires, f, fired, hnum⟩ := h
      rw [hpc] at hrest
      obtain ⟨rfl, rfl⟩ := Prod.mk.inj (Option.some.inj hrest)
      obtain ⟨v', hstep, hfiring, hnum'⟩ := hnum.destorySelf hfires
      refine ⟨v', .tail .refl trivial hstep, rest', false, rfl, ?_, f, fired, hnum'⟩
      rw [hfiring]
      rfl
  · contradiction

/-- A step of a sender alone. -/
theorem HasQueue.modify (h : w.HasQueue v) (k : ℕ) (f : Call → Call) :
    Follows v (w.modify k f) :=
  h.same rfl rfl

/-- `SendEvent` goes one of two ways before it posts. -/
theorem HasQueue.modify_either (h : w.HasQueue v) {k : ℕ} {p : Prop} [Decidable p]
    {f g : Call → Call}
    (hs : (if p then some (w.modify k f) else some (w.modify k g)) = some w') : Follows v w' := by
  split at hs
  · cases hs
    exact h.modify k f
  · cases hs
    exact h.modify k g

/-- The queue is not being closed. -/
theorem HasQueue.place_ne_none (h : w.HasQueue v) : w.pc.place ≠ none := by
  obtain ⟨rest, fires, hrest, -⟩ := h
  rw [hrest]
  exact Option.some_ne_none _

/-- Each step before the end of the loop does nothing to the event queue, or is a call of it. -/
theorem HasQueue.step (h : w.HasQueue v) {a : Action} (ha : a ≠ .closeBegin)
    (hs : step w a = some w') : Follows v w' := by
  have hclose {pc : Pc} (hpc : w.pc = pc) : pc.place ≠ none := hpc ▸ h.place_ne_none
  cases a with
  | send k =>
    obtain ⟨-, hs⟩ := Option.ite_none_right_eq_some.mp hs
    exact h.modify_either hs
  | sendSame k rv =>
    obtain ⟨-, hs⟩ := Option.ite_none_right_eq_some.mp hs
    exact h.modify_either hs
  | post k => exact h.post hs
  | wake k =>
    obtain ⟨-, ⟨⟩⟩ := Option.ite_none_right_eq_some.mp hs
    exact h.modify k _
  | waitFail k =>
    obtain ⟨-, ⟨⟩⟩ := Option.ite_none_right_eq_some.mp hs
    exact h.modify k _
  | repost k => exact h.repost hs
  | discardRead k =>
    obtain ⟨-, ⟨⟩⟩ := Option.ite_none_right_eq_some.mp hs
    exact h.modify k _
  | discardAct k =>
    rw [Synchronous.step, discardAct] at hs
    split at hs
    · cases hs
      exact h.modify k _
    · contradiction
  | postOther =>
    cases hs
    exact h.postEvent .other rfl rfl
  | stop =>
    cases hs
    exact h.stop
  | pop => exact h.pop hs
  | fire rv => exact h.fire hs
  | handleOther => exact h.handleOther hs
  | destroyRead =>
    rw [Synchronous.step, destroyRead] at hs
    split at hs
    · next k rest hpc =>
      cases hs
      exact h.same rfl (by rw [hpc]; rfl)
    · contradiction
  | destroyAct => exact h.destroyAct hs
  | endEvents =>
    obtain ⟨hpc, ⟨⟩⟩ := Option.ite_none_right_eq_some.mp hs
    exact h.same rfl (by rw [hpc]; rfl)
  | closeBegin => exact absurd rfl ha
  -- the rest is done while the queue is closed
  | closeRead =>
    rw [Synchronous.step, closeRead] at hs
    split at hs
    · next hpc _ => exact absurd rfl (hclose hpc)
    · next hpc _ => exact absurd rfl (hclose hpc)
    · contradiction
  | closeAct =>
    rw [Synchronous.step, closeAct] at hs
    split at hs
    · next hpc => exact absurd rfl (hclose hpc)
    · contradiction
  | closeEnd =>
    obtain ⟨⟨hpc, -⟩, -⟩ := Option.ite_none_right_eq_some.mp hs
    exact absurd rfl (hclose hpc)
  | closeClear =>
    obtain ⟨hpc, -⟩ := Option.ite_none_right_eq_some.mp hs
    exact absurd rfl (hclose hpc)

end World

/-- **The senders use the event queue**, until the loop has ended. -/
theorem reachable_of_senders {w : World}
    (h : Reach step (fun _ a => a ≠ .closeBegin) init w) :
    ∃ v, Reachable EventQueue.step EventQueue.init v ∧ w.HasQueue v :=
  h.simulate (R := World.HasQueue)
    ⟨[], false, rfl, rfl, fun _ => none, [], EventQueue.numbers_init _⟩
    fun _ _ _ _ hr ha hs => hr.step ha hs

end VosStack.Synchronous

/-! ### The notify pipe -/

namespace VosStack.Handlers

/-- What a record is for the event loop. -/
def CBuffer.kind (readHandle : ℤ) (bfNew : CBuffer) : Reactor.Record :=
  if bfNew.fd = -1 then .eventQueue else if bfNew.fd = readHandle then .self else .handler

/-- The event loop `v` has the pipe of `w`. -/
structure SharesPipe {Tid ε : Type*} (readHandle : ℤ) (w : World) (v : Reactor.World Tid ε) :
    Prop where
  isOpen : w.readHandle = some readHandle
  pipe : v.pipe = w.pipe.map (CBuffer.kind readHandle)

/-- The read handle and the records. -/
def World.ends (w : World) : Option ℤ × List CBuffer := (w.readHandle, w.pipe)

theorem ends_bind (w : World) (fd : ℤ) (eh : ℕ) (mask : MASK) :
    (w.bind fd eh mask).1.ends = w.ends := by
  rw [World.bind]
  split
  · rfl
  · split <;> rfl

theorem ends_removeAll (M : Masks) (w : World) (fd : ℤ) (ele : CElement) (reason : Reason) :
    (w.removeAll M fd ele reason).ends = w.ends := by
  rw [World.removeAll, World.removeHandleWithoutFinding]
  split
  · rfl
  · split
    · split <;> rfl
    · exact ends_bind ..

theorem ends_onCallFailed (M : Masks) (w : World) (fd : ℤ) (ele : CElement) (reason : Reason) :
    (w.onCallFailed M fd ele reason).ends = w.ends := by
  rw [World.onCallFailed]
  split
  · rfl
  · split
    · exact ends_removeAll ..
    · rfl

/-- `ProcessHandleEvent` does not touch the pipe. -/
theorem ends_processHandleEvent (M : Masks) (w : World) (fd : ℤ) (mask : MASK)
    (aIsNotify aDropConnect : Bool) (collected : Option ℕ) :
    (w.processHandleEvent M fd mask aIsNotify aDropConnect collected).ends = w.ends := by
  rw [World.processHandleEvent]
  split
  · rfl
  · dsimp only
    split
    · exact ends_removeAll ..
    · split
      · rfl
      · split
        · exact ends_onCallFailed ..
        · split
          · rfl
          · rw [World.output]
            split <;> rfl

section pipe

variable {Tid ε : Type*} [DecidableEq Tid] {M : Masks} {w : World} {v : Reactor.World Tid ε}
  {readHandle fd : ℤ}

/-- `NotifyHandler` writes the same record in both. -/
theorem notifyHandler_agrees (h : SharesPipe readHandle w v) (hqueue : fd ≠ -1)
    (hself : fd ≠ readHandle) (aMask : MASK) {c : Option Tid} (hc : v.MayCall c) :
    ∃ w' v', step M w (.notifyHandler fd aMask) = some w' ∧
      v.step (.notifyHandler c) = some v' ∧ SharesPipe readHandle w' v' := by
  have hopen : w.readHandle ≠ none := by rw [h.isOpen]; exact Option.some_ne_none _
  have hkind : (notifyRecord (some fd) aMask (w.bindingOf fd)).kind readHandle = .handler :=
    (if_neg hqueue).trans (if_neg hself)
  refine ⟨_, _, if_neg hopen, if_pos hc, h.isOpen, ?_⟩
  rw [List.map_append, ← h.pipe, List.map_singleton, hkind]
  rfl

/-- What `OnInput` of the pipe does with the record `bfNew`, in both: with the queue, with the pipe
itself, with another handler. -/
inductive Reads (M : Masks) (w : World) (bfNew : CBuffer) (caller : Caller)
    (rs : List Reactor.Reported) : World → Reactor.LoopPos ε → Prop
  | eventQueue (h : bfNew.kind caller.fd = .eventQueue) :
    Reads M w bfNew caller rs w (.drain (.toHandlers rs))
  | self (h : bfNew.kind caller.fd = .self) :
    Reads M w bfNew caller rs { w with caller := some caller, pc := .loop } (.handlers rs)
  | handler (h : bfNew.kind caller.fd = .handler) :
    Reads M w bfNew caller rs
      ({ w with caller := some caller }.processHandleEvent M bfNew.fd bfNew.mask true false
        bfNew.noted)
      (.handlers (.other :: rs))

/-- **`OnInput` of the pipe is the same in both**: the next record is taken, and the event queue is
drained, nothing is done, or another handler is called. -/
theorem notifyInput_agrees (h : SharesPipe readHandle w v) {ele : CElement} {mask : MASK}
    {collected : Option ℕ} {bfNew : CBuffer} {pipe : List CBuffer} {rs : List Reactor.Reported}
    (hpc : w.pc = .input readHandle ele mask collected) (hcaller : w.caller = none)
    (hpipe : w.pipe = bfNew :: pipe) (hidle : v.caller none = .idle)
    (hloop : v.loop = .handlers (.notifyPipe :: rs)) :
    ∃ w' v', step M w .notifyInput = some w' ∧ v.step .loopNext = some v' ∧
      SharesPipe readHandle w' v' ∧
      Reads M { w with pipe } bfNew ⟨readHandle, ele, mask, collected⟩ rs w' v'.loop := by
  have hw : step M w .notifyInput =
      if bfNew.fd = -1 then some { w with pipe }
      else some ({ w with
          pipe
          caller := some ⟨readHandle, ele, mask, collected⟩ }.notifyInput M readHandle bfNew) := by
    rw [step, hpc, hpipe, hcaller]
    exact if_pos h.isOpen
  have hrecord : v.pipe = bfNew.kind readHandle :: pipe.map (CBuffer.kind readHandle) := by
    rw [h.pipe, hpipe, List.map_cons]
  have hv : v.step .loopNext = v.loopNext := rfl
  rw [Reactor.World.loopNext, if_pos hidle, hloop, hrecord] at hv
  by_cases hqueue : bfNew.fd = -1
  · have hkind : bfNew.kind readHandle = .eventQueue := if_pos hqueue
    rw [hkind] at hv
    exact ⟨_, _, hw.trans (if_pos hqueue), hv, ⟨h.isOpen, rfl⟩, .eventQueue hkind⟩
  · rw [if_neg hqueue, World.notifyInput] at hw
    by_cases hself : bfNew.fd = readHandle
    · have hkind : bfNew.kind readHandle = .self := (if_neg hqueue).trans (if_pos hself)
      rw [if_pos (.inl hself)] at hw
      rw [hkind] at hv
      exact ⟨_, _, hw, hv, ⟨h.isOpen, rfl⟩, .self hkind⟩
    · have hkind : bfNew.kind readHandle = .handler := (if_neg hqueue).trans (if_neg hself)
      rw [if_neg (not_or.mpr ⟨hself, hqueue⟩)] at hw
      rw [hkind] at hv
      have hends := Prod.mk.inj (ends_processHandleEvent M { w with
        pipe
        caller := some ⟨readHandle, ele, mask, collected⟩ } bfNew.fd bfNew.mask true false
        bfNew.noted)
      refine ⟨_, _, hw, hv, ⟨hends.1.trans h.isOpen, ?_⟩, .handler hkind⟩
      rw [hends.2]

end pipe

end VosStack.Handlers
