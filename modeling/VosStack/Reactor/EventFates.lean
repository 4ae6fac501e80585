import VosStack.Reactor.EventQueue

/-!
# What becomes of an event

Events are fired **in the order in which they were posted**, each at most once, and each event that
was given to `PostEvent` is destroyed exactly once: after it was fired, when it is rejected, or
when it is discarded with the queue. A pop takes the oldest events and reports how many remain, as
long as their number fits in the `DWORD` in which the queue keeps it. With `2 ^ 32` events pending
the size is zero and a pop finds nothing; no event is lost by that.

The invariant gives every number a stage, with the calls made on the event so far. The events that
were fired, those that are popped and those in the queue, in this sequence, are in the order of
their numbers: a post adds a number at the end, pops and firings move the two borders.
-/

namespace VosStack.EventQueue

open Transition CFSEventQueueBase

/-! ### The contract -/

/-- The number of a fired event. -/
def Entry.fired : Entry → Option ℕ
  | .fire n => some n
  | .destory _ _ => none

/-- The entry is about the event `n`. -/
def Entry.about (n : ℕ) : Entry → Bool
  | .fire m => m == n
  | .destory m _ => m == n

namespace World

/-- The events fired so far, in order. -/
def fired (w : World) : List ℕ := w.log.filterMap Entry.fired

/-- The calls made on the event `n`. -/
def history (w : World) (n : ℕ) : List Entry := w.log.filter (Entry.about n)

end World

structure QueueOk (w : World) : Prop where
  /-- in the order of the posts, and none twice -/
  order : w.fired.Pairwise (· < ·)
  /-- in the end each event is destroyed, once -/
  ends : w.destoryed = true → w.popped = [] → w.firing = none → ∀ n < w.next,
    w.history n = [.fire n, .destory n .processed] ∨ w.history n = [.destory n .rejected] ∨
      w.history n = [.destory n .discarded]
  /-- a pop takes the oldest events -/
  pop : w.destoryed = false → ∀ aMaxCount : BitVec 32, 0 < aMaxCount.toNat →
    0 < w.queue.events.length → w.queue.events.length < 2 ^ 32 →
    ∃ queue dwRemain, w.queue.popPendingEvents aMaxCount =
        some (queue, w.queue.events.take (min aMaxCount.toNat w.queue.events.length), dwRemain) ∧
      queue.events = w.queue.events.drop (min aMaxCount.toNat w.queue.events.length) ∧
      dwRemain.toNat =
        w.queue.events.length - min aMaxCount.toNat w.queue.events.length

/-! ### Stages -/

inductive Stage
  | unborn
  /-- in the queue, or popped -/
  | waiting
  | firing
  | ended (why : Why)
  deriving DecidableEq, Repr

/-- The calls that were made on an event in that stage. -/
def Stage.history (n : ℕ) : Stage → List Entry
  | .unborn => []
  | .waiting => []
  | .firing => [.fire n]
  | .ended .processed => [.fire n, .destory n .processed]
  | .ended .rejected => [.destory n .rejected]
  | .ended .discarded => [.destory n .discarded]

/-- The events that are fired, popped and in the queue, one after another. -/
def World.line (w : World) : List ℕ := w.fired ++ (w.popped ++ w.queue.events)

/-- The invariant. -/
structure Staged (w : World) (stage : ℕ → Stage) : Prop where
  history : ∀ n, w.history n = (stage n).history n
  unborn : ∀ n, stage n = .unborn ↔ w.next ≤ n
  waiting : ∀ n, stage n = .waiting ↔ n ∈ w.popped ++ w.queue.events
  firing : ∀ n, stage n = .firing ↔ w.firing = some n
  order : w.line.Pairwise (· < ·)
  born : ∀ n ∈ w.line, n < w.next
  size : w.destoryed = false → w.queue.SizeOk
  emptied : w.destoryed = true → w.queue.events = []

theorem staged_init : Staged init fun _ => .unborn where
  history _ := rfl
  unborn n := iff_of_true rfl (Nat.zero_le n)
  waiting _ := iff_of_false Stage.noConfusion List.not_mem_nil
  firing _ := iff_of_false Stage.noConfusion nofun
  order := .nil
  born _ h := absurd h List.not_mem_nil
  size _ := rfl
  emptied _ := rfl

section steps

variable {w w' : World} {stage : ℕ → Stage}

/-- Calls are made on the event `n`, which thereby gets to the stage `s`. -/
theorem history_move {n : ℕ} {s : Stage} {es : List Entry}
    (h : ∀ m, w.history m = (stage m).history m) (hlog : w'.log = w.log ++ es)
    (hes : ∀ e ∈ es, ∀ m, e.about m = (n == m)) (hs : s.history n = (stage n).history n ++ es)
    (m : ℕ) : w'.history m = (Function.update stage n s m).history m := by
  rw [World.history, hlog, List.filter_append, ← World.history, h]
  by_cases hm : m = n
  · subst hm
    rw [Function.update_self, hs, List.filter_eq_self.mpr]
    intro e he
    rw [hes e he, beq_self_eq_true]
  · rw [Function.update_of_ne hm, List.filter_eq_nil_iff.mpr, List.append_nil]
    intro e he habout
    rw [hes e he, beq_iff_eq] at habout
    exact hm habout.symm

/-- A stage is set that is not `s`. -/
theorem update_eq_iff_of_ne {n : ℕ} {s t : Stage} (hne : s ≠ t) (hn : stage n ≠ t) (m : ℕ) :
    Function.update stage n s m = t ↔ stage m = t := by
  by_cases hm : m = n
  · subst hm
    rw [Function.update_self]
    exact iff_of_false hne hn
  · rw [Function.update_of_ne hm]

/-- The log does not grow, and what is popped comes from the queue. -/
theorem Staged.pop (h : Staged w stage) (hlog : w'.log = w.log) (hnext : w'.next = w.next)
    (hfiring : w'.firing = w.firing)
    (hlist : w'.popped ++ w'.queue.events = w.popped ++ w.queue.events)
    (hsize : w'.destoryed = false → w'.queue.SizeOk)
    (hempty : w'.destoryed = true → w'.queue.events = []) : Staged w' stage := by
  have hline : w'.line = w.line := by rw [World.line, World.fired, hlog, hlist]; rfl
  constructor
  · intro n
    rw [World.history, hlog]
    exact h.history n
  · intro n
    rw [hnext]
    exact h.unborn n
  · intro n
    rw [hlist]
    exact h.waiting n
  · intro n
    rw [hfiring]
    exact h.firing n
  · rw [hline]
    exact h.order
  · rw [hline, hnext]
    exact h.born
  · exact hsize
  · exact hempty

/-- The number of the next event, whether the queue takes it or not. -/
theorem Staged.unborn_next (h : Staged w stage) : stage w.next = .unborn :=
  (h.unborn _).mpr (Nat.le_refl _)

theorem Staged.unborn_post (h : Staged w stage) {s : Stage} (hs : s ≠ .unborn) (n : ℕ) :
    Function.update stage w.next s n = .unborn ↔ w.next + 1 ≤ n := by
  by_cases hn : n = w.next
  · subst hn
    rw [Function.update_self]
    exact iff_of_false hs (by omega)
  · rw [Function.update_of_ne hn, h.unborn n]
    omega

theorem Staged.ne_of_unborn (h : Staged w stage) {s : Stage} (hs : s ≠ .unborn) :
    stage w.next ≠ s := by
  rw [h.unborn_next]
  exact hs.symm

/-- A post that the queue takes. -/
theorem Staged.accepted (h : Staged w stage) (hlog : w'.log = w.log)
    (hnext : w'.next = w.next + 1) (hfiring : w'.firing = w.firing)
    (hpopped : w'.popped = w.popped) (hevents : w'.queue.events = w.queue.events ++ [w.next])
    (hsize : w'.destoryed = false → w'.queue.SizeOk) (hopen : w'.destoryed = false) :
    Staged w' (Function.update stage w.next .waiting) := by
  have hline : w'.line = w.line ++ [w.next] := by
    rw [World.line, World.fired, hlog, hpopped, hevents, ← List.append_assoc w.popped,
      ← List.append_assoc]
    rfl
  constructor
  · have hnone : w'.log = w.log ++ [] := by rw [hlog, List.append_nil]
    refine history_move h.history hnone (fun _ he => absurd he List.not_mem_nil) ?_
    rw [h.unborn_next]
    rfl
  · rw [hnext]
    exact h.unborn_post Stage.noConfusion
  · intro n
    rw [hpopped, hevents, ← List.append_assoc, List.mem_append, ← h.waiting, List.mem_singleton]
    by_cases hn : n = w.next
    · subst hn
      rw [Function.update_self]
      exact iff_of_true rfl (.inr rfl)
    · rw [Function.update_of_ne hn, or_iff_left hn]
  · intro n
    rw [update_eq_iff_of_ne Stage.noConfusion (h.ne_of_unborn Stage.noConfusion), hfiring]
    exact h.firing n
  · rw [hline]
    exact pairwise_snoc h.order h.born
  · rw [hline, hnext]
    have hborn := fun n hn => Nat.lt_succ_of_lt (h.born n hn)
    exact (forall_mem_snoc_iff hborn).mpr (Nat.lt_succ_self _)
  · exact hsize
  · rw [hopen]
    exact nofun

/-- A post to a stopped queue. -/
theorem Staged.rejected (h : Staged w stage) :
    Staged { w with next := w.next + 1, log := w.log ++ [.destory w.next .rejected] }
      (Function.update stage w.next (.ended .rejected)) := by
  have hfired : (w.log ++ [Entry.destory w.next .rejected]).filterMap Entry.fired = w.fired := by
    rw [List.filterMap_append]
    exact List.append_nil _
  constructor
  · refine history_move h.history rfl ?_ ?_
    · intro e he m
      rw [List.mem_singleton.mp he, Entry.about]
    · rw [h.unborn_next]
      rfl
  · exact h.unborn_post Stage.noConfusion
  · intro n
    rw [update_eq_iff_of_ne Stage.noConfusion (h.ne_of_unborn Stage.noConfusion)]
    exact h.waiting n
  · intro n
    rw [update_eq_iff_of_ne Stage.noConfusion (h.ne_of_unborn Stage.noConfusion)]
    exact h.firing n
  · rw [World.line, World.fired, hfired]
    exact h.order
  · rw [World.line, World.fired, hfired]
    exact fun n hn => Nat.lt_succ_of_lt (h.born n hn)
  · exact h.size
  · exact h.emptied

/-- `OnEventFire` of the first popped event. -/
theorem Staged.fire (h : Staged w stage) {n : ℕ} {popped : List ℕ}
    (hpopped : w.popped = n :: popped) (hfiring : w.firing = none) :
    Staged { w with popped, firing := some n, log := w.log ++ [.fire n] }
      (Function.update stage n .firing) := by
  have hwaiting : stage n = .waiting := (h.waiting n).mpr (by rw [hpopped]; exact .head _)
  have hline : World.line { w with popped, firing := some n, log := w.log ++ [.fire n] } =
      w.line := by
    rw [World.line, World.fired, World.line, List.filterMap_append, hpopped, List.append_assoc]
    rfl
  -- the order says that `n` is not a second time in what is popped or pending
  have hlater : n ∉ popped ++ w.queue.events := by
    have horder := (List.pairwise_append.mp h.order).2.1
    rw [hpopped] at horder
    exact fun hn => Nat.lt_irrefl n (List.rel_of_pairwise_cons horder hn)
  constructor
  · refine history_move h.history rfl ?_ ?_
    · intro e he m
      rw [List.mem_singleton.mp he, Entry.about]
    · rw [hwaiting]
      rfl
  · intro m
    rw [update_eq_iff_of_ne Stage.noConfusion (by rw [hwaiting]; exact Stage.noConfusion)]
    exact h.unborn m
  · intro m
    by_cases hm : m = n
    · subst hm
      rw [Function.update_self]
      exact iff_of_false Stage.noConfusion hlater
    · rw [Function.update_of_ne hm, h.waiting, hpopped, List.cons_append, List.mem_cons,
        or_iff_right hm]
  · intro m
    by_cases hm : m = n
    · subst hm
      rw [Function.update_self]
      exact iff_of_true rfl rfl
    · rw [Function.update_of_ne hm, h.firing, hfiring, Option.some_inj]
      exact iff_of_false nofun (Ne.symm hm)
  · rw [hline]
    exact h.order
  · rw [hline]
    exact h.born
  · exact h.size
  · exact h.emptied

/-- `OnDestorySelf` of the event that was fired. -/
theorem Staged.processed (h : Staged w stage) {n : ℕ} (hfiring : w.firing = some n) :
    Staged { w with firing := none, log := w.log ++ [.destory n .processed] }
      (Function.update stage n (.ended .processed)) := by
  have hstage : stage n = .firing := (h.firing n).mpr hfiring
  have hfired : (w.log ++ [Entry.destory n .processed]).filterMap Entry.fired = w.fired := by
    rw [List.filterMap_append]
    exact List.append_nil _
  constructor
  · refine history_move h.history rfl ?_ ?_
    · intro e he m
      rw [List.mem_singleton.mp he, Entry.about]
    · rw [hstage]
      rfl
  · intro m
    rw [update_eq_iff_of_ne Stage.noConfusion (by rw [hstage]; exact Stage.noConfusion)]
    exact h.unborn m
  · intro m
    rw [update_eq_iff_of_ne Stage.noConfusion (by rw [hstage]; exact Stage.noConfusion)]
    exact h.waiting m
  · intro m
    by_cases hm : m = n
    · subst hm
      rw [Function.update_self]
      exact iff_of_false Stage.noConfusion nofun
    · rw [Function.update_of_ne hm, h.firing, hfiring, Option.some_inj]
      exact iff_of_false (Ne.symm hm) nofun
  · rw [World.line, World.fired, hfired]
    exact h.order
  · rw [World.line, World.fired, hfired]
    exact h.born
  · exact h.size
  · exact h.emptied

/-- The entries that `DestoryPendingEvents` makes about one event. -/
theorem filter_about_map_discarded {l : List ℕ} (h : l.Nodup) (n : ℕ) :
    (l.map fun m => Entry.destory m .discarded).filter (Entry.about n) =
      if n ∈ l then [.destory n .discarded] else [] := by
  have habout : (Entry.about n ∘ fun m => Entry.destory m .discarded) = fun m => m == n := rfl
  rw [List.filter_map, habout, List.filter_beq, h.count]
  split
  · rfl
  · rfl

/-- `DestoryPendingEvents`. -/
theorem Staged.discarded (h : Staged w stage) :
    Staged { w with
        queue := w.queue.destoryPendingEvents
        destoryed := true
        log := w.log ++ w.queue.events.map (.destory · .discarded) }
      (fun n => if n ∈ w.queue.events then .ended .discarded else stage n) := by
  obtain ⟨_, hpending, hcross⟩ := List.pairwise_append.mp h.order
  obtain ⟨_, hevents, hbefore⟩ := List.pairwise_append.mp hpending
  have hwaiting : ∀ n ∈ w.queue.events, stage n = .waiting :=
    fun n hn => (h.waiting n).mpr (List.mem_append_right _ hn)
  have hfired : (w.log ++ w.queue.events.map (Entry.destory · .discarded)).filterMap
      Entry.fired = w.fired := by
    rw [List.filterMap_append, List.filterMap_map]
    have hnone : (Entry.fired ∘ fun n => Entry.destory n .discarded) = fun _ => none := rfl
    rw [hnone, List.filterMap_none, List.append_nil]
    rfl
  have hline : World.line { w with
      queue := w.queue.destoryPendingEvents
      destoryed := true
      log := w.log ++ w.queue.events.map (.destory · .discarded) } = w.fired ++ w.popped := by
    rw [World.line, World.fired, hfired]
    exact congrArg (w.fired ++ ·) (List.append_nil _)
  have hsub : (w.fired ++ w.popped).Sublist w.line :=
    List.Sublist.append_left (List.sublist_append_left _ _) _
  constructor
  · intro n
    rw [World.history, List.filter_append,
      filter_about_map_discarded (hevents.imp Nat.ne_of_lt), ← World.history, h.history]
    split
    · next hn =>
      rw [hwaiting n hn]
      rfl
    · exact List.append_nil _
  · intro n
    split
    · next hn =>
      exact iff_of_false Stage.noConfusion
        (Nat.not_le.mpr (h.born n (List.mem_append_right _ (List.mem_append_right _ hn))))
    · exact h.unborn n
  · intro n
    change _ ↔ n ∈ w.popped ++ []
    rw [List.append_nil]
    split
    · next hn =>
      exact iff_of_false Stage.noConfusion (fun hp => Nat.lt_irrefl n (hbefore n hp n hn))
    · next hn => rw [h.waiting, List.mem_append, or_iff_left hn]
  · intro n
    split
    · next hn =>
      refine iff_of_false Stage.noConfusion fun hfiring => ?_
      have hstage := (h.firing n).mpr hfiring
      rw [hwaiting n hn] at hstage
      exact Stage.noConfusion hstage
    · exact h.firing n
  · rw [hline]
    exact h.order.sublist hsub
  · rw [hline]
    exact fun n hn => h.born n (hsub.subset hn)
  · exact nofun
  · exact fun _ => rfl

end steps

/-! ### Runs -/

theorem staged_step {w w' : World} {stage : ℕ → Stage} {a : Action} (h : Staged w stage)
    (hstep : step w a = some w') : ∃ stage', Staged w' stage' := by
  cases a with
  | postEvent =>
    rw [step, Option.ite_none_left_eq_some] at hstep
    obtain ⟨hd, heq⟩ := hstep
    cases hstop : w.queue.isStopped with
    | true =>
      rw [postEvent_of_stopped hstop] at heq
      cases heq
      exact ⟨_, h.rejected⟩
    | false =>
      have hsize := fun hd => (h.size hd).append w.next
      rw [postEvent_of_not_stopped hstop] at heq
      cases heq
      exact ⟨_, h.accepted rfl rfl rfl rfl rfl hsize (eq_false_of_ne_true hd)⟩
  | popPendingEvents aMaxCount =>
    rw [step, Option.ite_none_left_eq_some] at hstep
    obtain ⟨hd, heq⟩ := hstep
    split at heq
    · cases heq
      exact ⟨_, h⟩
    · next hpop =>
      cases heq
      have hsize := (h.size (eq_false_of_ne_true hd)).popPendingEvents hpop
      refine ⟨_, h.pop rfl rfl rfl ?_ (fun _ => hsize) fun hd' => absurd hd' hd⟩
      rw [← (popPendingEvents_append hpop).1]
      exact List.append_assoc ..
  | popOnePendingEvent =>
    rw [step, Option.ite_none_left_eq_some] at hstep
    obtain ⟨hd, heq⟩ := hstep
    split at heq
    · cases heq
      exact ⟨_, h⟩
    · next hpop =>
      cases heq
      obtain ⟨happend, _, hsize⟩ :=
        popOnePendingEvent_append (h.size (eq_false_of_ne_true hd)) hpop
      refine ⟨_, h.pop rfl rfl rfl ?_ (fun _ => hsize) fun hd' => absurd hd' hd⟩
      rw [← happend]
      exact List.append_assoc ..
  | fire =>
    rw [step] at hstep
    split at hstep
    · next hfiring hpopped =>
      cases hstep
      exact ⟨_, h.fire hpopped hfiring⟩
    · contradiction
  | destorySelf =>
    rw [step] at hstep
    split at hstep
    · next hfiring =>
      cases hstep
      exact ⟨_, h.processed hfiring⟩
    · contradiction
  | stop =>
    cases hstep
    exact ⟨_, h.pop rfl rfl rfl rfl h.size h.emptied⟩
  | destoryPendingEvents =>
    rw [step, Option.ite_none_left_eq_some] at hstep
    obtain ⟨_, heq⟩ := hstep
    cases heq
    exact ⟨_, h.discarded⟩

theorem exists_staged {w : World} (h : Reachable step init w) : ∃ stage, Staged w stage := by
  refine h.induct (I := fun w => ∃ stage, Staged w stage) ⟨_, staged_init⟩ ?_
  rintro w a w' ⟨stage, hstage⟩ _ hstep
  exact staged_step hstage hstep

/-- Nothing is queued, popped or being fired: every event that was posted has come to its end. -/
theorem Staged.ended {w : World} {stage : ℕ → Stage} (h : Staged w stage)
    (hevents : w.queue.events = []) (hpopped : w.popped = []) (hfiring : w.firing = none) {n : ℕ}
    (hn : n < w.next) : ∃ why, stage n = .ended why := by
  cases hstage : stage n with
  | unborn => exact absurd ((h.unborn n).mp hstage) (Nat.not_le.mpr hn)
  | waiting =>
    have hmem := (h.waiting n).mp hstage
    rw [hevents, hpopped] at hmem
    exact absurd hmem List.not_mem_nil
  | firing =>
    have hsome := (h.firing n).mp hstage
    rw [hfiring] at hsome
    contradiction
  | ended why => exact ⟨why, rfl⟩

/-- **Events are fired in the order of the posts**, each at most once, and each is destroyed
exactly once, whatever is posted, popped and stopped in between. -/
theorem queueOk {w : World} (h : Reachable step init w) : QueueOk w := by
  obtain ⟨stage, hstage⟩ := exists_staged h
  constructor
  · exact (List.pairwise_append.mp hstage.order).1
  · intro hd hpopped hfiring n hn
    obtain ⟨why, hwhy⟩ := hstage.ended (hstage.emptied hd) hpopped hfiring hn
    rw [hstage.history, hwhy]
    cases why with
    | processed => exact .inl rfl
    | rejected => exact .inr (.inl rfl)
    | discarded => exact .inr (.inr rfl)
  · intro hd aMaxCount _ hpos hlt
    have hpop := popPendingEvents_of_lt (hstage.size hd) (List.ne_nil_of_length_pos hpos) hlt
      aMaxCount
    refine ⟨_, _, hpop, rfl, ?_⟩
    rw [BitVec.toNat_ofNat, List.length_drop]
    exact Nat.mod_eq_of_lt (Nat.lt_of_le_of_lt (Nat.sub_le _ _) hlt)

/-- Two posts, a pop of one event, its processing, a stop, a rejected post and the discard. -/
theorem queueOk_discarded :
    QueueOk ⟨⟨[], 1, true⟩, [], none, true, 3,
      [.fire 0, .destory 0 .processed, .destory 2 .rejected, .destory 1 .discarded]⟩ :=
  queueOk (reachable_of_exec [.postEvent, .postEvent, .popPendingEvents 1, .fire, .destorySelf,
    .stop, .postEvent, .destoryPendingEvents] rfl)

/-! ### Too many events -/

/-- `n` posts. -/
def posted (n : ℕ) : World :=
  ⟨⟨List.range n, BitVec.ofNat 32 n, false⟩, [], none, false, n, []⟩

theorem length_posted (n : ℕ) : (posted n).queue.events.length = n := List.length_range

theorem dwSize_posted (n : ℕ) : (posted n).queue.dwSize = BitVec.ofNat 32 n := rfl

theorem step_posted (n : ℕ) : step (posted n) .postEvent = some (posted (n + 1)) := by
  rw [posted, posted, List.range_succ, BitVec.ofNat_add]
  rfl

theorem reachable_posted (n : ℕ) : Reachable step init (posted n) := by
  induction n with
  | zero => exact .refl
  | succ n ih => exact ih.tail trivial (step_posted n)

/-- With `2 ^ 32` events pending the size is zero, and `PopPendingEvents` finds nothing. -/
theorem not_queueOk :
    Reachable step init (posted (2 ^ 32)) ∧ (posted (2 ^ 32)).queue.events.length = 2 ^ 32 ∧
      (posted (2 ^ 32)).queue.popPendingEvents 1 = none := by
  have hsize : (posted (2 ^ 32)).queue.dwSize = 0 := by
    rw [dwSize_posted]
    decide
  exact ⟨reachable_posted _, length_posted _, popPendingEvents_eq_none_iff.mpr hsize⟩

end VosStack.EventQueue
