import VosStack.Reactor.EventLoop

/-!
# How many records the notify pipe holds

`CFSReactorNotifyPipe::OnInput` reads one record for each report of the pipe, and the pipe is
registered edge-triggered: all records written between two waits are one report. The records
that are left are read only when later writes make the pipe be reported again.

The event queue is drained twice in one round of the loop, from the notify handler and at the
end of the body. A thread that posts after each drain finds the queue empty and notifies each
time, so that **every round adds a record** (`exec_round`): no bound holds for all runs.

The pipe is bounded by one record in the runs in which a record is written only when the pipe is
empty or has been reported since the last write: then every record in the pipe has an edge, or a
report that is still to be handled, of its own (`Owned`). The buffer of the socket pair, which
blocks the writers when it is full, is not part of the model.
-/

namespace VosStack.Reactor

open Transition

/-! ### The reports that are still to be handled -/

def Return.pending : Return → List Reported
  | .toHandlers rs => rs
  | .toLoop => []

def LoopPos.pending {ε : Type*} : LoopPos ε → List Reported
  | .handlers rs => rs
  | .drain k => k.pending
  | .firing _ _ k => k.pending
  | .renotify k => k.pending
  | _ => []

theorem Return.pending_next {ε : Type*} (k : Return) :
    (k.next : LoopPos ε).pending = k.pending := by
  cases k <;> rfl

namespace World

variable {Tid ε : Type*} [DecidableEq Tid]

/-- Whenever the loop enters `vos_epoll_wait`, at most a constant number of records is unread. -/
def PipeBounded (R : World Tid ε → Prop) : Prop :=
  ∃ B, ∀ w, R w → w.loop = .enter → w.pipe.length ≤ B

/-- The action writes a record. -/
def writes (w : World Tid ε) : Action Tid ε → Bool
  | .notify _ => true
  | .notifyHandler _ => true
  | .loopNext => match w.loop with
    | .renotify _ => true
    | _ => false
  | _ => false

/-- A record is written only when the pipe is empty, or was reported since the last write. -/
def Spaced (w : World Tid ε) (a : Action Tid ε) : Prop :=
  w.writes a = true → w.edge = true → w.pipe = []

instance (w : World Tid ε) (a : Action Tid ε) : Decidable (w.Spaced a) :=
  inferInstanceAs (Decidable (_ → _ → _))

/-! ### What a step does to the pipe -/

inductive PipeChange (w : World Tid ε) (a : Action Tid ε) (w' : World Tid ε) : Prop
  | keep (hpipe : w'.pipe = w.pipe) (hedge : w'.edge = w.edge)
      (hpending : w'.loop.pending = w.loop.pending)
  | write (r : Record) (hwrites : w.writes a = true) (hpipe : w'.pipe = w.pipe ++ [r])
      (hedge : w'.edge = true) (hpending : w'.loop.pending = w.loop.pending)
  /-- the wait returns -/
  | report (rs : List Reported) (hrs : .notifyPipe ∈ rs → w.edge = true)
      (hpending : w.loop.pending = []) (hpipe : w'.pipe = w.pipe)
      (hedge : w'.edge = if .notifyPipe ∈ rs then false else w.edge)
      (hpending' : w'.loop.pending = rs)
  /-- a report of the pipe is handled -/
  | read (rs : List Reported) (hpending : w.loop.pending = .notifyPipe :: rs)
      (hpipe : w'.pipe = w.pipe.tail) (hedge : w'.edge = w.edge)
      (hpending' : w'.loop.pending = rs ∨ w'.loop.pending = .other :: rs)
  /-- another report is handled -/
  | pass (rs : List Reported) (hpending : w.loop.pending = .other :: rs)
      (hpipe : w'.pipe = w.pipe) (hedge : w'.edge = w.edge) (hpending' : w'.loop.pending = rs)

variable {w w' : World Tid ε} {a : Action Tid ε}

omit [DecidableEq Tid] in
theorem pipeChange_of_loopNext (hs : w.loopNext = some w') : PipeChange w .loopNext w' := by
  rw [loopNext] at hs
  split at hs
  swap
  · contradiction
  split at hs
  · next hl =>
    obtain rfl := Option.some.inj hs
    refine .keep rfl rfl ?_
    rw [hl]
    dsimp only
    split <;> rfl
  · next hl =>
    obtain rfl := Option.some.inj hs
    exact .keep rfl rfl (by rw [hl]; rfl)
  · next hl =>
    obtain rfl := Option.some.inj hs
    exact .keep rfl rfl (by rw [hl]; rfl)
  · next rs hl =>
    obtain rfl := Option.some.inj hs
    exact .pass rs (by rw [hl]; rfl) rfl rfl rfl
  · next rs hl =>
    have hpending : w.loop.pending = .notifyPipe :: rs := by rw [hl]; rfl
    -- one record is read, whatever it names
    split at hs <;> next hp =>
      obtain rfl := Option.some.inj hs
      refine .read rs hpending (by rw [hp]; rfl) rfl ?_
      first
        | exact .inl rfl
        | exact .inr rfl
  · next k hl =>
    have hpending : w.loop.pending = k.pending := by rw [hl]; rfl
    split at hs
    · obtain rfl := Option.some.inj hs
      exact .keep rfl rfl (k.pending_next.trans hpending.symm)
    · obtain rfl := Option.some.inj hs
      exact .keep rfl rfl hpending.symm
  · next hl =>
    obtain rfl := Option.some.inj hs
    exact .keep rfl rfl (by rw [hl]; rfl)
  · next remain k hl =>
    obtain rfl := Option.some.inj hs
    refine .keep rfl rfl ?_
    rw [hl]
    dsimp only
    split
    · rfl
    · exact k.pending_next
  · next k hl =>
    obtain rfl := Option.some.inj hs
    refine .write .eventQueue (by rw [writes, hl]) rfl rfl ?_
    rw [hl]
    exact k.pending_next
  all_goals contradiction

/-- **What a step does to the pipe.** -/
theorem pipeChange_of_step (hs : step w a = some w') : PipeChange w a w' := by
  cases a with
  | postEvent c e =>
    rw [step, postEvent, Option.ite_none_right_eq_some] at hs
    obtain rfl := Option.some.inj hs.2
    exact .keep rfl rfl rfl
  | stopEventLoop c =>
    rw [step, stopEventLoop, Option.ite_none_right_eq_some] at hs
    obtain rfl := Option.some.inj hs.2
    exact .keep rfl rfl rfl
  | notify c =>
    rw [step, notify] at hs
    split at hs
    · contradiction
    · obtain rfl := Option.some.inj hs
      exact .write .eventQueue rfl rfl rfl rfl
    · obtain rfl := Option.some.inj hs
      exact .write .self rfl rfl rfl rfl
  | notifyHandler c =>
    rw [step, notifyHandler, Option.ite_none_right_eq_some] at hs
    obtain rfl := Option.some.inj hs.2
    exact .write .handler rfl rfl rfl rfl
  | stopQueue =>
    obtain rfl := Option.some.inj hs
    exact .keep rfl rfl rfl
  | loopNext => exact pipeChange_of_loopNext hs
  | enterWait timeout =>
    rw [step, enterWait] at hs
    split at hs
    · next hl =>
      obtain rfl := Option.some.inj hs
      exact .keep rfl rfl (by rw [hl]; rfl)
    · contradiction
  | skipWait =>
    rw [step, skipWait] at hs
    split at hs
    · next hl =>
      obtain rfl := Option.some.inj hs
      exact .keep rfl rfl (by rw [hl]; rfl)
    · contradiction
  | waitReturn rs =>
    rw [step, waitReturn] at hs
    split at hs
    · next hl =>
      rw [Option.ite_none_right_eq_some] at hs
      obtain ⟨⟨-, hrs⟩, hs⟩ := hs
      obtain rfl := Option.some.inj hs
      exact .report rs hrs (by rw [hl]; rfl) rfl rfl rfl
    · contradiction
  | waitTimeout =>
    rw [step, waitTimeout] at hs
    split at hs
    · next hl =>
      obtain rfl := Option.some.inj hs
      exact .keep rfl rfl (by rw [hl]; rfl)
    · contradiction
  | waitFailed =>
    rw [step, waitFailed] at hs
    split at hs
    · next hl =>
      obtain rfl := Option.some.inj hs
      exact .keep rfl rfl (by rw [hl]; rfl)
    · contradiction

/-! ### One record for each edge -/

/-- Every record in the pipe has an edge, or a report that is still to be handled, of its own. -/
def Owned (w : World Tid ε) : Prop :=
  w.pipe.length ≤ (if w.edge then 1 else 0) + if .notifyPipe ∈ w.loop.pending then 1 else 0

omit [DecidableEq Tid] in
theorem PipeChange.owned (hchange : PipeChange w a w') (h : w.Owned) (hspaced : w.Spaced a) :
    w'.Owned := by
  rw [Owned] at h ⊢
  cases hchange with
  | keep hpipe hedge hpending =>
    rw [hpipe, hedge, hpending]
    exact h
  | write r hwrites hpipe hedge hpending =>
    rw [hpipe, hedge, hpending, List.length_append, List.length_singleton, if_pos rfl]
    cases hw : w.edge with
    | false =>
      rw [hw, if_neg Bool.false_ne_true] at h
      omega
    | true =>
      -- the edge is there already, so the pipe was empty
      rw [hspaced hwrites hw, List.length_nil]
      omega
  | report rs hrs hpending hpipe hedge hpending' =>
    rw [hpending, if_neg List.not_mem_nil] at h
    rw [hpipe, hedge, hpending']
    by_cases hmem : Reported.notifyPipe ∈ rs
    · rw [hrs hmem, if_pos rfl] at h
      rw [if_pos hmem, if_pos hmem, if_neg Bool.false_ne_true]
      omega
    · rw [if_neg hmem, if_neg hmem]
      exact h
  | read rs hpending hpipe hedge hpending' =>
    rw [hpending, if_pos List.mem_cons_self] at h
    rw [hpipe, hedge, List.length_tail]
    omega
  | pass rs hpending hpipe hedge hpending' =>
    have hmem : Reported.notifyPipe ∈ Reported.other :: rs ↔ .notifyPipe ∈ rs := by simp
    rw [hpending] at h
    simp only [hmem] at h
    rw [hpipe, hedge, hpending']
    exact h

/-- **Boundedness.** In every run in which a record is written only when the pipe is empty or was
reported since the last write, at most one record is unread when the loop enters the wait. -/
theorem pipeBounded_of_spaced : PipeBounded (Reach step Spaced (init : World Tid ε)) := by
  refine ⟨1, fun w h hl => ?_⟩
  have howned : w.Owned := h.induct (I := Owned) (Nat.zero_le _) fun _ _ _ hi hspaced hs =>
    (pipeChange_of_step hs).owned hi hspaced
  have hpending : w.loop.pending = [] := by rw [hl]; rfl
  rw [Owned, hpending, if_neg List.not_mem_nil] at howned
  split at howned <;> omega

/-- Such runs exist: a round of the loop with one post, which is fired, and a second post at the
next wait. -/
theorem pipeBounded_of_spaced_round :
    (∃ w, Reach step Spaced (init : World Unit Unit) w ∧ w.loop = .enter ∧ w.fired = [()] ∧
      w.pipe.length = 1) ∧
    PipeBounded (Reach step Spaced (init : World Unit Unit)) :=
  ⟨⟨_, reach_of_exec [.loopNext, .loopNext, .enterWait false, .postEvent (some ()) (),
    .notify (some ()), .waitReturn [.notifyPipe], .loopNext, .loopNext, .loopNext, .loopNext,
    .loopNext, .loopNext, .loopNext, .loopNext, .postEvent (some ()) (), .notify (some ())]
    (by decide) rfl, rfl, rfl, rfl⟩, pipeBounded_of_spaced⟩

/-! ### A record more in every round -/

/-- The loop is about to wait, with the records `p` in the pipe and no event pending. -/
def atWait (p : List Record) (log : List Unit) : World Unit Unit :=
  ⟨⟨[], 0, false⟩, false, p, true, fun _ => .idle, .enter, log, log⟩

/-- A round of the loop in which another thread posts after each of the two drains. -/
def round : List (Action Unit Unit) :=
  [.enterWait false, .waitReturn [.notifyPipe], .loopNext,
    .postEvent (some ()) (), .notify (some ()), .loopNext, .loopNext, .loopNext, .loopNext,
    .postEvent (some ()) (), .notify (some ()), .loopNext, .loopNext, .loopNext, .loopNext,
    .loopNext]

theorem exec_round (p : List Record) (log : List Unit) :
    exec step (atWait (.eventQueue :: p) log) round =
      some (atWait (p ++ [.eventQueue] ++ [.eventQueue]) (log ++ [()] ++ [()])) := by
  have hidle : Function.update (Function.update (Function.update (Function.update
      (fun _ : Option Unit => CallPos.idle) (some ()) .posted) (some ()) .idle) (some ()) .posted)
      (some ()) .idle = fun _ => .idle := by
    rw [Function.update_idem, Function.update_idem, Function.update_idem, Function.update_eq_self]
  exact congrArg (fun caller => some { atWait (p ++ [.eventQueue] ++ [.eventQueue])
    (log ++ [()] ++ [()]) with caller }) hidle

theorem reachable_atWait (n : ℕ) :
    ∃ p log, Reachable step init (atWait p log) ∧ p = List.replicate (n + 1) .eventQueue := by
  induction n with
  | zero =>
    -- the first event is fired without a wait, and its record is left in the pipe
    refine ⟨[.eventQueue], [()], reachable_of_exec [.postEvent (some ()) (), .notify (some ()),
      .loopNext, .loopNext, .skipWait, .loopNext, .loopNext, .loopNext, .loopNext, .loopNext] ?_,
    rfl⟩
    have hidle : Function.update (Function.update (fun _ : Option Unit => CallPos.idle) (some ())
        .posted) (some ()) .idle = fun _ => .idle := by
      rw [Function.update_idem, Function.update_eq_self]
    exact congrArg (fun caller => some { atWait [.eventQueue] [()] with caller }) hidle
  | succ n ih =>
    obtain ⟨p, log, hreach, rfl⟩ := ih
    have hround := exec_round (List.replicate n .eventQueue) log
    refine ⟨_, _, hreach.trans (reachable_of_exec round hround), ?_⟩
    rw [← List.replicate_succ', ← List.replicate_succ']

/-- **No bound** holds for all runs of the loop and one other thread. -/
theorem not_pipeBounded : ¬ PipeBounded (Reachable step (init : World Unit Unit)) := by
  rintro ⟨B, hB⟩
  obtain ⟨p, log, hreach, rfl⟩ := reachable_atWait B
  have hle := hB _ hreach rfl
  rw [atWait, List.length_replicate] at hle
  omega

end World

end VosStack.Reactor
