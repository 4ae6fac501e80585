import VosStack.Reactor.Synchronous

/-!
# The life of a synchronous event

The contract of `SendEvent`: the wrapped event is fired at most once and destroyed once, the
wrapper is deleted once and not used after that, and a wrapper that has left the queue has woken
its sender.

The code does not keep it:

* `DestoryPendingEvents` calls `OnDestorySelf` once on a wrapper that nobody has handled. Its
  sender is not signalled, and waits for ever.
* When `Stop` comes between the check of `SendEvent` and the `PostEvent` of the wrapper, the
  wrapper gets one `OnDestorySelf` and is never deleted.
* When `Stop` comes while a sender waits, its second `PostEvent` calls `OnDestorySelf` in the
  sender's thread, where it can meet the first call in the thread of the queue: both find the flag
  clear and nobody deletes the wrapper, or the second one finds it set and deletes the wrapper
  under the first one, which then destroys the event once more.
* A wrapper posted after the loop of `DestoryPendingEvents` is dropped by `m_Events.clear()`.

`Guard` excludes these steps. In the runs that are left, a call is at any moment in one of the
stages of `Life`, which says where the wrapper is and which of its ends are still to come.
-/

namespace VosStack.Synchronous

open Transition

open EventQueue (CFSEventQueueBase maxGetOnce)

open EventQueue.CFSEventQueueBase (postEvent_of_stopped postEvent_of_not_stopped
  popPendingEvents_append)

/-! ### The stages -/

/-- The events popped and not yet handled. -/
def Pc.rest : Pc → List Event
  | .events rest | .fired _ rest | .destroy _ _ rest => rest
  | _ => []

/-- How often the wrapper of `k` waits to be handled. -/
def World.here (w : World) (k : ℕ) : ℕ := (w.queue.events ++ w.pc.rest).count (.wrapper k)

/-- What the thread of the queue is doing with a wrapper. -/
inductive Handling
  | none
  /-- `OnEventFire` has returned -/
  | fired
  /-- in `OnDestorySelf` -/
  | destroy (e : Ending)
  deriving DecidableEq, Repr

/-- After a step of `OnDestorySelf`. -/
def Handling.after : Option Ending → Handling
  | .none => .none
  | some e => .destroy e

def Pc.handling (k : ℕ) : Pc → Handling
  | .fired j _ => if j = k then .fired else .none
  | .destroy j e _ | .closeDestroy j e => if j = k then .destroy e else .none
  | _ => .none

def World.handling (w : World) (k : ℕ) : Handling := w.pc.handling k

namespace Obj

/-- The wrapper is made. -/
def fresh : Obj := ⟨true, false, true, false, 0, 0, 0, false⟩

/-- The wrapped event was fired. -/
def afterFire : Obj := ⟨true, false, true, true, 1, 0, 0, false⟩

/-- The first `OnDestorySelf` has set the flag. -/
def marked : Obj := ⟨true, true, true, true, 1, 0, 0, false⟩

/-- It has destroyed the wrapped event. -/
def eventGone : Obj := ⟨true, true, true, true, 1, 1, 0, false⟩

/-- The first `OnDestorySelf` has returned. -/
def once : Obj := ⟨true, true, false, true, 1, 1, 0, false⟩

/-- The wrapper was deleted. -/
def gone : Obj := ⟨true, true, false, true, 1, 1, 1, false⟩

/-- The event was refused by a stopped queue. -/
def refused : Obj := ⟨false, false, false, false, 0, 1, 0, false⟩

/-- The event was fired by the thread of the queue itself. -/
def same : Obj := ⟨false, false, false, false, 1, 1, 0, false⟩

end Obj

/-- The wrapper, and what is being done with it, from its first `OnEventFire` to the end of its
first `OnDestorySelf`. -/
inductive First : Obj → Handling → Prop
  | fired : First .afterFire .fired
  | read : First .afterFire (.destroy (.read false))
  | marked : First .marked (.destroy .marked)
  | destroyed : First .eventGone (.destroy .destroyed)

/-- The stages of a call: the place of the sender, the wrapper, how often it waits to be handled
and what is being done with it. -/
inductive Life : Phase → Obj → ℕ → Handling → Prop
  | idle : Life .idle .none 0 .none
  | checked : Life .checked .fresh 0 .none
  | queued : Life .waiting .fresh 1 .none
  | first {o : Obj} {h : Handling} (hf : First o h) : Life .waiting o 0 h
  | firstWoken {o : Obj} {h : Handling} (hf : First o h) : Life .woken o 0 h
  | destroyed : Life .waiting .once 0 .none
  | destroyedWoken : Life .woken .once 0 .none
  /-- the sender was faster than the first `OnDestorySelf` -/
  | repostedEarly {o : Obj} {h : Handling} (hf : First o h) : Life .returned o 1 h
  | reposted : Life .returned .once 1 .none
  | second {h : Handling} (hh : h = .fired ∨ h = .destroy (.read true)) : Life .returned .once 0 h
  | discard : Life .discard .once 0 .none
  | discardRead : Life (.destroy (.read true)) .once 0 .none
  | gone : Life .returned .gone 0 .none
  | refused : Life .returned .refused 0 .none
  | same : Life .returned .same 0 .none

/-- The stage of the call `k`. -/
def LifeAt (w : World) (k : ℕ) : Prop :=
  Life (w.calls k).phase (w.calls k).obj (w.here k) (w.handling k)

/-- The wrapper is marked by its first `OnDestorySelf`. -/
def World.marked (w : World) : Event → Bool
  | .wrapper k => (w.calls k).obj.hasDestoryed
  | .other => true

/-- Once the loop has ended, only wrappers whose event is destroyed are queued. -/
def Closing (w : World) : Prop :=
  (w.running = false → ∀ e ∈ w.queue.events, w.marked e = true) ∧
  match w.pc with
  | .idle => True
  | .events _ | .fired _ _ | .destroy _ _ _ => w.running = true
  | .close => w.running = false
  | .closeDestroy _ e => w.running = false ∧ e = .read true
  | .clear => w.running = false ∧ ∀ k, .wrapper k ∉ w.queue.events

/-! ### The contract -/

/-- The thread of the queue still has the wrapper of `k` or will have it. -/
def World.Held (w : World) (k : ℕ) : Prop := w.here k ≠ 0 ∨ w.handling k ≠ .none

/-- The steps that do not reach one of the defects. -/
def Guard (w : World) : Action → Prop
  | .post _ => w.queue.isStopped = false ∧ w.running = true
  | .waitFail _ => False
  | .repost k =>
    if w.queue.isStopped then (w.calls k).obj.eventPost = false else w.pc ≠ .clear
  | .closeBegin => ∀ e ∈ w.queue.events, w.marked e = true
  | _ => True

instance (w : World) : (a : Action) → Decidable (Guard w a)
  | .post _ => inferInstanceAs (Decidable (w.queue.isStopped = false ∧ w.running = true))
  | .waitFail _ => inferInstanceAs (Decidable False)
  | .repost k =>
    inferInstanceAs (Decidable
      (if w.queue.isStopped then (w.calls k).obj.eventPost = false else w.pc ≠ .clear))
  | .closeBegin => inferInstanceAs (Decidable (∀ e ∈ w.queue.events, w.marked e = true))
  | .send _ | .sendSame _ _ | .wake _ | .discardRead _ | .discardAct _ | .postOther | .stop | .pop
  | .fire _ | .handleOther | .destroyRead | .destroyAct | .endEvents | .closeRead | .closeAct
  | .closeEnd | .closeClear => inferInstanceAs (Decidable True)

/-- After the end of the loop no wrapper is fired, and no wrapped event is destroyed. -/
theorem Closing.not_first {w : World} (hc : Closing w) (hrun : w.running = false) (k : ℕ)
    {o : Obj} : ¬ First o (w.handling k) := by
  have hpc := hc.2
  rw [World.handling]
  cases hw : w.pc with
  | events rest | fired k rest | destroy k e rest =>
    rw [hw] at hpc
    exact absurd (hrun.symm.trans hpc) Bool.false_ne_true
  | closeDestroy j e =>
    rw [hw] at hpc
    obtain rfl := hpc.2
    rw [Pc.handling]
    split <;> exact nofun
  | _ => exact nofun

theorem First.eventPost {o : Obj} {h : Handling} (hf : First o h) : o.eventPost = true := by
  cases hf <;> rfl

theorem First.touch {o : Obj} {h : Handling} (hf : First o h) : o.touch = o := by
  cases hf <;> rfl

/-- A step of the first `OnDestorySelf`. -/
theorem First.next {o : Obj} {e : Ending} (hf : First o (.destroy e)) :
    First (o.onDestorySelf e).1 (.after (o.onDestorySelf e).2) ∨
      (o.onDestorySelf e).1 = .once ∧ (o.onDestorySelf e).2 = .none := by
  cases hf with
  | read => exact .inl .marked
  | marked => exact .inl .destroyed
  | destroyed => exact .inr ⟨rfl, rfl⟩

namespace Life

variable {p : Phase} {o : Obj} {n : ℕ} {h : Handling}

theorem create (hl : Life .idle o n h) : Life .checked o.create n h := by
  cases hl
  exact .checked

theorem not_hasDestoryed (hl : Life .idle o n h) : o.hasDestoryed ≠ true := by
  cases hl
  exact Bool.false_ne_true

theorem refuse (hl : Life .idle o n h) :
    Life .returned { o with destroyed := o.destroyed + 1 } n h := by
  cases hl
  exact .refused

theorem sendSame (hl : Life .idle o n h) :
    Life .returned { o with fired := o.fired + 1, destroyed := o.destroyed + 1 } n h := by
  cases hl
  exact .same

theorem post (hl : Life .checked o n h) : Life .waiting o (n + 1) h := by
  cases hl
  exact .queued

theorem wake (hl : Life .waiting o n h) (hs : o.signalled = true) : Life .woken o.touch n h := by
  cases hl with
  | queued => exact absurd hs nofun
  | first hf =>
    rw [hf.touch]
    exact .firstWoken hf
  | destroyed => exact .destroyedWoken

theorem repost (hl : Life .woken o n h) : Life .returned o.touch (n + 1) h := by
  cases hl with
  | firstWoken hf =>
    rw [hf.touch]
    exact .repostedEarly hf
  | destroyedWoken => exact .reposted

/-- A woken sender whose wrapper is not being handled. -/
theorem hasDestoryed_of_woken (hl : Life .woken o n h) (hh : ¬ First o h) :
    o.hasDestoryed = true := by
  cases hl with
  | firstWoken hf => exact absurd hf hh
  | destroyedWoken => rfl

theorem repostStopped (hl : Life .woken o n h) (hpost : o.eventPost = false) :
    Life .discard o.touch n h := by
  cases hl with
  | firstWoken hf => exact absurd (hf.eventPost.symm.trans hpost) Bool.false_ne_true.symm
  | destroyedWoken => exact .discard

theorem discardFlag (hl : Life .discard o n h) :
    Life (.destroy (.read o.hasDestoryed)) o.touch n h := by
  cases hl
  exact .discardRead

theorem discardAct {e : Ending} (hl : Life (.destroy e) o n h) :
    Life (.afterDestroy (o.onDestorySelf e).2) (o.onDestorySelf e).1 n h := by
  cases hl
  exact .gone

theorem fire (hl : Life p o (n + 1) .none) : Life p o.onEventFire n .fired := by
  cases hl with
  | queued => exact .first .fired
  | reposted => exact .second (.inl rfl)
  | repostedEarly hf => cases hf

theorem read (hl : Life p o n .fired) : Life p o.touch n (.destroy (.read o.hasDestoryed)) := by
  cases hl with
  | first hf => cases hf; exact .first .read
  | firstWoken hf => cases hf; exact .firstWoken .read
  | repostedEarly hf => cases hf; exact .repostedEarly .read
  | second => exact .second (.inr rfl)

theorem destroy {e : Ending} (hl : Life p o n (.destroy e)) :
    Life p (o.onDestorySelf e).1 n (.after (o.onDestorySelf e).2) := by
  cases hl with
  | first hf =>
    obtain hf | ⟨hobj, hnone⟩ := hf.next
    · exact .first hf
    · rw [hobj, hnone]
      exact .destroyed
  | firstWoken hf =>
    obtain hf | ⟨hobj, hnone⟩ := hf.next
    · exact .firstWoken hf
    · rw [hobj, hnone]
      exact .destroyedWoken
  | repostedEarly hf =>
    obtain hf | ⟨hobj, hnone⟩ := hf.next
    · exact .repostedEarly hf
    · rw [hobj, hnone]
      exact .reposted
  | second hh =>
    obtain rfl : e = .read true := by simpa using hh
    exact .gone

/-- `DestoryPendingEvents` on a wrapper whose event is destroyed. -/
theorem close (hl : Life p o (n + 1) .none) (hflag : o.hasDestoryed = true) :
    Life p o.touch n (.destroy (.read o.hasDestoryed)) := by
  cases hl with
  | queued => exact absurd hflag nofun
  | reposted => exact .second (.inr rfl)
  | repostedEarly hf => cases hf

end Life

/-! ### Steps -/

/-- The invariant. -/
def Inv (w : World) : Prop := (∀ k, LifeAt w k) ∧ Closing w

theorem inv_init : Inv init := ⟨fun _ => .idle, nofun, trivial⟩

section steps

variable {w w' : World}

/-- A call that a step does not concern stays in its stage. -/
theorem LifeAt.frame {k : ℕ} (h : LifeAt w k) (hcall : w'.calls k = w.calls k)
    (hhere : w'.here k = w.here k) (hhandling : w'.handling k = w.handling k) : LifeAt w' k := by
  rw [LifeAt, hcall, hhere, hhandling]
  exact h

theorem World.modify_calls_self (w : World) (k : ℕ) (f : Call → Call) :
    (w.modify k f).calls k = f (w.calls k) := Function.update_self k _ w.calls

theorem World.modify_calls_of_ne (w : World) {j k : ℕ} (f : Call → Call) (h : j ≠ k) :
    (w.modify k f).calls j = w.calls j := Function.update_of_ne h _ w.calls

/-- The marks of the queued wrappers stay when one call is changed. -/
theorem marked_modify {k : ℕ} {f : Call → Call}
    (hflag : (w.calls k).obj.hasDestoryed = true → (f (w.calls k)).obj.hasDestoryed = true)
    {e : Event} (he : w.marked e = true) : (w.modify k f).marked e = true := by
  cases e with
  | other => rfl
  | wrapper j =>
    rw [World.marked]
    by_cases hjk : j = k
    · subst hjk
      rw [World.modify_calls_self]
      exact hflag he
    · rw [World.modify_calls_of_ne w f hjk]
      exact he

/-- A step of a sender that leaves the queue alone. -/
theorem Inv.modify (h : Inv w) {k : ℕ} {f : Call → Call}
    (hflag : (w.calls k).obj.hasDestoryed = true → (f (w.calls k)).obj.hasDestoryed = true)
    (hlife : Life (f (w.calls k)).phase (f (w.calls k)).obj (w.here k) (w.handling k)) :
    Inv (w.modify k f) := by
  refine ⟨fun j => ?_, fun hrun e he => ?_, h.2.2⟩
  · by_cases hjk : j = k
    · subst hjk
      rw [LifeAt, World.modify_calls_self]
      exact hlife
    · exact (h.1 j).frame (World.modify_calls_of_ne w f hjk) rfl rfl
  · exact marked_modify hflag (h.2.1 hrun e he)

/-- An event is posted, and calls are changed. Between the loop and `clear()` no wrapper may be
posted. -/
theorem Closing.append (hclosing : Closing w) {e : Event} (hpc : w.pc = .clear → e = .other)
    {calls : ℕ → Call} (hmarked : w.running = false → ∀ e' ∈ w.queue.events ++ [e],
      World.marked { w with calls } e' = true) :
    Closing { w with calls, queue := w.queue.append e } := by
  have hplace := hclosing.2
  refine ⟨hmarked, ?_⟩
  cases hw : w.pc with
  | clear =>
    rw [hw] at hplace
    refine ⟨hplace.1, fun k hk => ?_⟩
    obtain hk | hk := List.mem_append.mp hk
    · exact hplace.2 k hk
    · exact absurd ((List.mem_singleton.mp hk).trans (hpc hw)) nofun
  | idle => trivial
  | _ =>
    rw [hw] at hplace
    exact hplace

theorem count_other (events : List Event) (k : ℕ) :
    (Event.other :: events).count (.wrapper k) = events.count (.wrapper k) :=
  List.count_cons_of_ne (fun h => Event.noConfusion h)

theorem count_append (w : World) (e : Event) (k : ℕ) :
    ((w.queue.append e).events ++ w.pc.rest).count (.wrapper k) =
      w.here k + [e].count (.wrapper k) := by
  rw [World.here, CFSEventQueueBase.append, List.count_append, List.count_append, List.count_append]
  omega

theorem count_wrapper_self (k : ℕ) : [Event.wrapper k].count (.wrapper k) = 1 :=
  List.count_singleton_self

theorem count_wrapper_of_ne {e : Event} {k : ℕ} (h : e ≠ .wrapper k) :
    [e].count (.wrapper k) = 0 :=
  List.count_eq_zero.mpr fun hmem => h (List.mem_singleton.mp hmem).symm

theorem wrapper_ne {j k : ℕ} (h : j ≠ k) : Event.wrapper k ≠ .wrapper j :=
  fun heq => h (Event.wrapper.inj heq).symm

/-- A step of a sender that posts its wrapper. -/
theorem Inv.push (h : Inv w) {k : ℕ} {f : Call → Call} (hpc : w.pc ≠ .clear)
    (hflag : (w.calls k).obj.hasDestoryed = true → (f (w.calls k)).obj.hasDestoryed = true)
    (hrun : w.running = false → (f (w.calls k)).obj.hasDestoryed = true)
    (hlife : Life (f (w.calls k)).phase (f (w.calls k)).obj (w.here k + 1) (w.handling k)) :
    Inv { w.modify k f with queue := w.queue.append (.wrapper k) } := by
  -- the queue has the wrapper of `k` once more, and the others as often as before
  refine ⟨fun j => ?_, h.2.append (fun hw => absurd hw hpc) fun hr e he => ?_⟩
  · by_cases hjk : j = k
    · subst hjk
      change Life ((w.modify j f).calls j).phase ((w.modify j f).calls j).obj
        (((w.queue.append (.wrapper j)).events ++ w.pc.rest).count (.wrapper j)) (w.handling j)
      rw [World.modify_calls_self, count_append, count_wrapper_self]
      exact hlife
    · refine (h.1 j).frame (World.modify_calls_of_ne w f hjk) ?_ rfl
      refine (count_append w (.wrapper k) j).trans ?_
      rw [count_wrapper_of_ne (wrapper_ne hjk), Nat.add_zero]
  · obtain he | he := List.mem_append.mp he
    · exact marked_modify hflag (h.2.1 hr e he)
    · obtain rfl := List.mem_singleton.mp he
      change ((w.modify k f).calls k).obj.hasDestoryed = true
      rw [World.modify_calls_self]
      exact hrun hr

/-- A step of the thread of the queue with the wrapper of `k`. -/
theorem Inv.handle (h : Inv w) {k : ℕ} {f : Call → Call} {queue : CFSEventQueueBase Event} {pc : Pc}
    (hhere : ∀ j, j ≠ k → (queue.events ++ pc.rest).count (.wrapper j) = w.here j)
    (hhandling : ∀ j, j ≠ k → pc.handling j = w.handling j)
    (hlife : Life (f (w.calls k)).phase (f (w.calls k)).obj
      ((queue.events ++ pc.rest).count (.wrapper k)) (pc.handling k))
    (hclosing : Closing { w.modify k f with queue, pc }) :
    Inv { w.modify k f with queue, pc } := by
  refine ⟨fun j => ?_, hclosing⟩
  by_cases hjk : j = k
  · subst hjk
    change Life ((w.modify j f).calls j).phase ((w.modify j f).calls j).obj _ _
    rw [World.modify_calls_self]
    exact hlife
  · exact (h.1 j).frame (World.modify_calls_of_ne w f hjk) (hhere j hjk) (hhandling j hjk)

/-- What `Closing` says of the place where the thread of the queue is. -/
theorem Inv.closing_at (h : Inv w) {pc : Pc} (hpc : w.pc = pc) : Closing { w with pc } := by
  subst hpc
  exact h.2

/-- A step with the wrapper that is being handled, which puts the thread of the queue in another
place of the same call. -/
theorem Inv.handle_same (h : Inv w) {k : ℕ} {f : Call → Call} {pc : Pc} {x : Handling}
    (hrest : pc.rest = w.pc.rest)
    (hhandling : ∀ j, w.handling j = if k = j then x else .none)
    (hnone : ∀ j, j ≠ k → pc.handling j = .none)
    (hlife : Life (w.calls k).phase (w.calls k).obj (w.here k) x →
      Life (f (w.calls k)).phase (f (w.calls k)).obj (w.here k) (pc.handling k))
    (hclosing : Closing { w.modify k f with pc }) : Inv { w.modify k f with pc } := by
  have hcount : ∀ j, (w.queue.events ++ pc.rest).count (.wrapper j) = w.here j := by
    intro j
    rw [hrest]
    rfl
  refine Inv.handle h (fun j _ => hcount j) (fun j hj => ?_) ?_ hclosing
  · exact (hnone j hj).trans ((hhandling j).trans (if_neg (Ne.symm hj))).symm
  · have hk := h.1 k
    rw [LifeAt, hhandling, if_pos rfl] at hk
    change Life _ _ ((w.queue.events ++ pc.rest).count (.wrapper k)) _
    rw [hcount k]
    exact hlife hk

/-- The thread of the queue takes a wrapper. -/
theorem Inv.handle_next (h : Inv w) {k : ℕ} {f : Call → Call} {queue : CFSEventQueueBase Event}
    {pc : Pc}
    (hcount : ∀ j, w.here j =
      (queue.events ++ pc.rest).count (.wrapper j) + [Event.wrapper k].count (.wrapper j))
    (hnone : ∀ j, w.handling j = .none)
    (hnone' : ∀ j, j ≠ k → pc.handling j = .none)
    (hlife : ∀ n, Life (w.calls k).phase (w.calls k).obj (n + 1) .none →
      Life (f (w.calls k)).phase (f (w.calls k)).obj n (pc.handling k))
    (hclosing : Closing { w.modify k f with queue, pc }) :
    Inv { w.modify k f with queue, pc } := by
  refine h.handle (fun j hj => ?_) (fun j hj => ?_) ?_ hclosing
  · rw [hcount j, count_wrapper_of_ne (wrapper_ne hj), Nat.add_zero]
  · exact (hnone' j hj).trans (hnone j).symm
  · have hk := h.1 k
    rw [LifeAt, hcount k, count_wrapper_self, hnone k] at hk
    exact hlife _ hk

/-- A step of the thread of the queue between two wrappers. -/
theorem Inv.between (h : Inv w) {queue : CFSEventQueueBase Event} {pc pc' : Pc} {running : Bool}
    (hpc : w.pc = pc)
    (hcount : ∀ j, (queue.events ++ pc'.rest).count (.wrapper j) =
      (w.queue.events ++ pc.rest).count (.wrapper j))
    (hnone : ∀ j, pc.handling j = .none) (hnone' : ∀ j, pc'.handling j = .none)
    (hclosing : Closing { w with queue, pc := pc', running }) :
    Inv { w with queue, pc := pc', running } := by
  subst hpc
  exact ⟨fun j => (h.1 j).frame rfl (hcount j) ((hnone' j).trans (hnone j).symm), hclosing⟩

/-- The stage of a call whose sender is known to be at `p`. -/
theorem Inv.at_phase (h : Inv w) {k : ℕ} {p : Phase} (hp : (w.calls k).phase = p) :
    Life p (w.calls k).obj (w.here k) (w.handling k) := hp ▸ h.1 k

theorem Obj.onDestorySelf_hasDestoryed {o : Obj} {e : Ending} (h : o.hasDestoryed = true) :
    (o.onDestorySelf e).1.hasDestoryed = true := by
  cases e with
  | read flag =>
    cases flag with
    | false => rfl
    | true => exact h
  | marked =>
    rw [Obj.onDestorySelf]
    split <;> exact h
  | destroyed => exact h

/-! ### The steps of the senders -/

theorem Inv.refuse (h : Inv w) {k : ℕ} (hp : (w.calls k).phase = .idle) : Inv (w.refuse k) :=
  h.modify (fun hf => hf) (h.at_phase hp).refuse

theorem Inv.send (h : Inv w) {k : ℕ} (hs : w.send k = some w') : Inv w' := by
  rw [World.send, Option.ite_none_right_eq_some] at hs
  obtain ⟨hp, hs⟩ := hs
  have hk := h.at_phase hp
  split at hs
  · obtain rfl := Option.some.inj hs
    exact h.refuse hp
  · obtain rfl := Option.some.inj hs
    exact h.modify (fun hf => absurd hf hk.not_hasDestoryed) hk.create

theorem Inv.sendSame (h : Inv w) {k : ℕ} {rv : CAWResult} (hs : w.sendSame k rv = some w') :
    Inv w' := by
  rw [World.sendSame, Option.ite_none_right_eq_some] at hs
  obtain ⟨hp, hs⟩ := hs
  split at hs
  · obtain rfl := Option.some.inj hs
    exact h.refuse hp
  · obtain rfl := Option.some.inj hs
    exact h.modify (fun hf => hf) (h.at_phase hp).sendSame

/-- The first `PostEvent` of a wrapper, while the loop runs. -/
theorem Inv.post (h : Inv w) {k : ℕ} (hstopped : w.queue.isStopped = false)
    (hrun : w.running = true) (hs : w.post k = some w') : Inv w' := by
  rw [World.post, Option.ite_none_right_eq_some, postEvent_of_not_stopped hstopped] at hs
  obtain ⟨hp, hs⟩ := hs
  obtain rfl := Option.some.inj hs
  -- a post that succeeds between the loop and `clear()` would be dropped with the list
  have hpc : w.pc ≠ .clear := by
    intro hpc
    have hclosing := h.2.2
    rw [hpc] at hclosing
    exact Bool.false_ne_true (hclosing.1.symm.trans hrun)
  exact h.push hpc (fun hf => hf) (fun hr => absurd (hr.symm.trans hrun) Bool.false_ne_true)
    (h.at_phase hp).post

theorem Inv.wake (h : Inv w) {k : ℕ} (hs : w.wake k = some w') : Inv w' := by
  rw [World.wake, Option.ite_none_right_eq_some] at hs
  obtain ⟨⟨hp, hsig⟩, hs⟩ := hs
  obtain rfl := Option.some.inj hs
  exact h.modify (fun hf => hf) ((h.at_phase hp).wake hsig)

/-- The second `PostEvent`, by the sender that was woken. -/
theorem Inv.repost (h : Inv w) {k : ℕ} (hpc : w.queue.isStopped = false → w.pc ≠ .clear)
    (hpost : w.queue.isStopped = true → (w.calls k).obj.eventPost = false)
    (hs : w.repost k = some w') : Inv w' := by
  rw [World.repost, Option.ite_none_right_eq_some] at hs
  obtain ⟨hp, hs⟩ := hs
  have hk := h.at_phase hp
  cases hstopped : w.queue.isStopped with
  | true =>
    rw [postEvent_of_stopped hstopped] at hs
    obtain rfl := Option.some.inj hs
    exact h.modify (fun hf => hf) (hk.repostStopped (hpost hstopped))
  | false =>
    rw [postEvent_of_not_stopped hstopped] at hs
    obtain rfl := Option.some.inj hs
    exact h.push (hpc hstopped) (fun hf => hf)
      (fun hr => hk.hasDestoryed_of_woken (h.2.not_first hr k)) hk.repost

theorem Inv.discardRead (h : Inv w) {k : ℕ} (hs : w.discardRead k = some w') : Inv w' := by
  rw [World.discardRead, Option.ite_none_right_eq_some] at hs
  obtain ⟨hp, hs⟩ := hs
  obtain rfl := Option.some.inj hs
  exact h.modify (fun hf => hf) (h.at_phase hp).discardFlag

theorem Inv.discardAct (h : Inv w) {k : ℕ} (hs : w.discardAct k = some w') : Inv w' := by
  rw [World.discardAct] at hs
  split at hs
  · next hp =>
    obtain rfl := Option.some.inj hs
    exact h.modify Obj.onDestorySelf_hasDestoryed (h.at_phase hp).discardAct
  · contradiction

/-- Another event in the queue. A post between the loop and `clear()` drops no wrapper. -/
theorem Inv.postOther (h : Inv w) : Inv w.postOther := by
  rw [World.postOther]
  cases hstopped : w.queue.isStopped with
  | true =>
    rw [postEvent_of_stopped hstopped]
    exact h
  | false =>
    rw [postEvent_of_not_stopped hstopped]
    refine ⟨fun j => (h.1 j).frame rfl ?_ rfl, h.2.append (fun _ => rfl) fun hr e he => ?_⟩
    · refine (count_append w .other j).trans ?_
      rw [count_wrapper_of_ne (Event.noConfusion ·), Nat.add_zero]
    · obtain he | he := List.mem_append.mp he
      · exact h.2.1 hr e he
      · obtain rfl := List.mem_singleton.mp he
        rfl

/-! ### The steps of the thread of the queue -/

theorem Inv.pop (h : Inv w) (hs : w.pop = some w') : Inv w' := by
  rw [World.pop, Option.ite_none_right_eq_some] at hs
  obtain ⟨⟨hpc, hrun⟩, hs⟩ := hs
  split at hs
  · contradiction
  · next queue events _ hpop =>
    obtain rfl := Option.some.inj hs
    refine h.between hpc (fun j => ?_) (fun _ => rfl) (fun _ => rfl) ⟨fun hr => ?_, hrun⟩
    · rw [← (popPendingEvents_append hpop).1, Pc.rest, List.count_append, Nat.add_comm,
        ← List.count_append]
      exact congrArg (List.count _) (List.append_nil _).symm
    · exact absurd (hrun.symm.trans hr) Bool.false_ne_true.symm

theorem Inv.fire (h : Inv w) {rv : CAWResult} (hs : w.fire rv = some w') : Inv w' := by
  rw [World.fire] at hs
  split at hs
  swap
  · contradiction
  next k rest hpc =>
  obtain rfl := Option.some.inj hs
  have hrun : w.running = true := (h.closing_at hpc).2
  refine Inv.handle_next h (fun j => ?_) (fun j => ?_) (fun j hj => ?_) (fun n hk => ?_)
    ⟨fun hr => ?_, hrun⟩
  · rw [World.here, hpc]
    change (w.queue.events ++ ([Event.wrapper k] ++ rest)).count _ =
      (w.queue.events ++ rest).count _ + _
    rw [List.count_append, List.count_append, List.count_append]
    omega
  · rw [World.handling, hpc]
    rfl
  · exact if_neg (Ne.symm hj)
  · rw [Pc.handling, if_pos rfl]
    exact hk.fire
  · exact absurd (hrun.symm.trans hr) Bool.false_ne_true.symm

theorem Inv.handleOther (h : Inv w) (hs : w.handleOther = some w') : Inv w' := by
  rw [World.handleOther] at hs
  split at hs
  · next rest hpc =>
    obtain rfl := Option.some.inj hs
    have hrun : w.running = true := (h.closing_at hpc).2
    refine h.between hpc (fun j => ?_) (fun _ => rfl) (fun _ => rfl) ⟨h.2.1, hrun⟩
    rw [Pc.rest, Pc.rest, List.count_append, List.count_append, count_other]
  · contradiction

theorem Inv.destroyRead (h : Inv w) (hs : w.destroyRead = some w') : Inv w' := by
  rw [World.destroyRead] at hs
  split at hs
  swap
  · contradiction
  next k rest hpc =>
  obtain rfl := Option.some.inj hs
  have hrun : w.running = true := (h.closing_at hpc).2
  have hhandling : ∀ j, w.handling j = if k = j then .fired else .none := by
    intro j
    rw [World.handling, hpc]
    rfl
  refine h.handle_same (by rw [hpc]; rfl) hhandling (fun j hj => ?_) (fun hk => ?_)
    ⟨fun hr => ?_, hrun⟩
  · exact if_neg (Ne.symm hj)
  · rw [Pc.handling, if_pos rfl]
    exact hk.read
  · exact absurd (hrun.symm.trans hr) Bool.false_ne_true.symm

theorem Pc.rest_afterDestroy (k : ℕ) (rest : List Event) (e : Option Ending) :
    (Pc.afterDestroy k rest e).rest = rest := by
  cases e <;> rfl

theorem Pc.handling_afterDestroy (j k : ℕ) (rest : List Event) (e : Option Ending) :
    (Pc.afterDestroy k rest e).handling j = if k = j then .after e else .none := by
  cases e with
  | none => exact (ite_self _).symm
  | some e => rfl

theorem Inv.destroyAct (h : Inv w) (hs : w.destroyAct = some w') : Inv w' := by
  rw [World.destroyAct] at hs
  split at hs
  swap
  · contradiction
  next k e rest hpc =>
  obtain rfl := Option.some.inj hs
  have hrun : w.running = true := (h.closing_at hpc).2
  have hhandling : ∀ j, w.handling j = if k = j then .destroy e else .none := by
    intro j
    rw [World.handling, hpc]
    rfl
  refine h.handle_same ?_ hhandling (fun j hj => ?_) (fun hk => ?_) ⟨fun hr => ?_, ?_⟩
  · rw [hpc]
    exact Pc.rest_afterDestroy ..
  · rw [Pc.handling_afterDestroy, if_neg (Ne.symm hj)]
  · rw [Pc.handling_afterDestroy, if_pos rfl]
    exact hk.destroy
  · exact absurd (hrun.symm.trans hr) Bool.false_ne_true.symm
  · cases ((w.calls k).obj.onDestorySelf e).2 <;> exact hrun

theorem Inv.endEvents (h : Inv w) (hs : w.endEvents = some w') : Inv w' := by
  rw [World.endEvents, Option.ite_none_right_eq_some] at hs
  obtain ⟨hpc, hs⟩ := hs
  obtain rfl := Option.some.inj hs
  exact h.between hpc (fun _ => rfl) (fun _ => rfl) (fun _ => rfl) ⟨h.2.1, trivial⟩

/-! ### The steps of `DestoryPendingEvents` -/

/-- What `Close` finds in the queue has been fired, so that it can be destroyed here. -/
theorem Inv.closeBegin (h : Inv w) (hmarked : ∀ e ∈ w.queue.events, w.marked e = true)
    (hs : w.closeBegin = some w') : Inv w' := by
  rw [World.closeBegin, Option.ite_none_right_eq_some] at hs
  obtain ⟨hpc, hs⟩ := hs
  obtain rfl := Option.some.inj hs
  exact h.between hpc (fun _ => rfl) (fun _ => rfl) (fun _ => rfl) ⟨fun _ => hmarked, rfl⟩

theorem Inv.closeRead_wrapper (h : Inv w) {k : ℕ} {events : List Event} (hpc : w.pc = .close)
    (hevents : w.queue.events = .wrapper k :: events) :
    Inv { w.modify k fun c => { c with obj := c.obj.touch } with
      queue := { w.queue with events }
      pc := .closeDestroy k (.read (w.calls k).obj.hasDestoryed) } := by
  have hrun : w.running = false := (h.closing_at hpc).2
  have hmarked : ∀ e ∈ Event.wrapper k :: events, w.marked e = true := by
    intro e he
    rw [← hevents] at he
    exact h.2.1 hrun e he
  have hflag : (w.calls k).obj.hasDestoryed = true := hmarked _ List.mem_cons_self
  refine h.handle_next (fun j => ?_) (fun j => ?_) (fun j hj => ?_) (fun n hk => ?_)
    ⟨fun _ e he => ?_, hrun, congrArg Ending.read hflag⟩
  · rw [World.here, hpc, hevents]
    change ([Event.wrapper k] ++ events ++ []).count _ = (events ++ []).count _ + _
    rw [List.append_nil, List.append_nil, List.count_append]
    omega
  · rw [World.handling, hpc]
    rfl
  · exact if_neg (Ne.symm hj)
  · rw [Pc.handling, if_pos rfl]
    exact hk.close hflag
  · exact marked_modify (f := fun c => { c with obj := c.obj.touch }) (fun h => h)
      (hmarked e (List.mem_cons_of_mem _ he))

theorem Inv.closeRead_other (h : Inv w) {events : List Event} (hpc : w.pc = .close)
    (hevents : w.queue.events = .other :: events) :
    Inv { w with queue := { w.queue with events } } := by
  have hrun : w.running = false := (h.closing_at hpc).2
  refine h.between rfl (fun j => ?_) (fun j => ?_) (fun j => ?_) ⟨fun hr e he => ?_, ?_⟩
  · rw [hevents, List.count_append, List.count_append, count_other]
  · rw [hpc]; rfl
  · rw [hpc]; rfl
  · exact h.2.1 hr e (hevents ▸ List.mem_cons_of_mem _ he)
  · rw [hpc]; exact hrun

theorem Inv.closeRead (h : Inv w) (hs : w.closeRead = some w') : Inv w' := by
  rw [World.closeRead] at hs
  split at hs
  · next hpc hevents =>
    obtain rfl := Option.some.inj hs
    exact h.closeRead_wrapper hpc hevents
  · next hpc hevents =>
    obtain rfl := Option.some.inj hs
    exact h.closeRead_other hpc hevents
  · contradiction

theorem Pc.rest_afterClose (k : ℕ) (e : Option Ending) : (Pc.afterClose k e).rest = [] := by
  cases e <;> rfl

theorem Pc.handling_afterClose (j k : ℕ) (e : Option Ending) :
    (Pc.afterClose k e).handling j = if k = j then .after e else .none := by
  cases e with
  | none => exact (ite_self _).symm
  | some e => rfl

theorem Inv.closeAct (h : Inv w) (hs : w.closeAct = some w') : Inv w' := by
  rw [World.closeAct] at hs
  split at hs
  swap
  · contradiction
  next k e hpc =>
  obtain rfl := Option.some.inj hs
  obtain ⟨-, hrun, rfl⟩ := h.closing_at hpc
  have hhandling : ∀ j, w.handling j = if k = j then .destroy (.read true) else .none := by
    intro j
    rw [World.handling, hpc]
    rfl
  refine h.handle_same ?_ hhandling (fun j hj => ?_) (fun hk => ?_) ⟨fun _ e he => ?_, hrun⟩
  · rw [hpc]
    exact Pc.rest_afterClose ..
  · rw [Pc.handling_afterClose, if_neg (Ne.symm hj)]
  · rw [Pc.handling_afterClose, if_pos rfl]
    exact hk.destroy
  · exact marked_modify (f := fun c => { c with obj := (c.obj.onDestorySelf (.read true)).1 })
      Obj.onDestorySelf_hasDestoryed (h.2.1 hrun e he)

theorem Inv.closeEnd (h : Inv w) (hs : w.closeEnd = some w') : Inv w' := by
  rw [World.closeEnd, Option.ite_none_right_eq_some] at hs
  obtain ⟨⟨hpc, hevents⟩, hs⟩ := hs
  obtain rfl := Option.some.inj hs
  have hrun := (h.closing_at hpc).2
  refine h.between hpc (fun _ => rfl) (fun _ => rfl) (fun _ => rfl) ⟨h.2.1, hrun, fun k hk => ?_⟩
  exact absurd (hevents ▸ hk) List.not_mem_nil

/-- No wrapper was posted after the loop, so `clear()` drops none. -/
theorem Inv.closeClear (h : Inv w) (hs : w.closeClear = some w') : Inv w' := by
  rw [World.closeClear, Option.ite_none_right_eq_some] at hs
  obtain ⟨hpc, hs⟩ := hs
  obtain rfl := Option.some.inj hs
  obtain ⟨-, -, hnone⟩ := h.closing_at hpc
  refine h.between hpc (fun j => ?_) (fun _ => rfl) (fun _ => rfl) ⟨fun _ => nofun, trivial⟩
  have hzero : w.queue.events.count (.wrapper j) = 0 := List.count_eq_zero.mpr (hnone j)
  exact hzero.symm.trans (congrArg (List.count _) (List.append_nil _).symm)

/-- **Every admitted step keeps the stages.** -/
theorem Inv.step (h : Inv w) {a : Action} (hok : Guard w a) (hs : step w a = some w') :
    Inv w' := by
  cases a with
  | send k => exact h.send hs
  | sendSame k rv => exact h.sendSame hs
  | post k => exact h.post hok.1 hok.2 hs
  | wake k => exact h.wake hs
  -- never admitted: the sender would return while the queue holds its wrapper
  | waitFail k => exact absurd hok id
  | repost k =>
    rw [Guard] at hok
    refine h.repost (fun hstopped => ?_) (fun hstopped => ?_) hs
    · rwa [hstopped, if_neg Bool.false_ne_true] at hok
    · rwa [if_pos hstopped] at hok
  | discardRead k => exact h.discardRead hs
  | discardAct k => exact h.discardAct hs
  | postOther => exact Option.some.inj hs ▸ h.postOther
  | stop => exact Option.some.inj hs ▸ h
  | pop => exact h.pop hs
  | fire rv => exact h.fire hs
  | handleOther => exact h.handleOther hs
  | destroyRead => exact h.destroyRead hs
  | destroyAct => exact h.destroyAct hs
  | endEvents => exact h.endEvents hs
  | closeBegin => exact h.closeBegin hok hs
  | closeRead => exact h.closeRead hs
  | closeAct => exact h.closeAct hs
  | closeEnd => exact h.closeEnd hs
  | closeClear => exact h.closeClear hs

end steps

/-! ### Runs -/

/-- One call is handled, and its sender posts the wrapper again before the first `OnDestorySelf`;
then the queue is stopped and closed. -/
def handled : List Action :=
  [.send 0, .postOther, .post 0, .pop, .handleOther, .fire .ok, .wake 0, .repost 0, .destroyRead,
    .destroyAct, .destroyAct, .destroyAct, .endEvents, .stop, .closeBegin, .closeRead, .closeAct,
    .closeEnd, .closeClear]

/-- The reactor is closed while a wrapper is queued: the sender waits, the wrapper is nowhere, and
nobody has signalled. -/
def closed : List Action :=
  [.send 0, .post 0, .closeBegin, .closeRead, .closeAct, .closeAct, .closeAct, .closeEnd,
    .closeClear]

end VosStack.Synchronous
