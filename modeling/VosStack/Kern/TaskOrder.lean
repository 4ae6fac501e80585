import VosStack.Kern.Taskqueue
import Mathlib.Algebra.Ring.Nat
import Mathlib.Data.List.TakeWhile

/-!
# The order of the tasks

Wherever the search for the place of a task starts, the task is put between two parts of the queue
(`Linked.linkTask_split`), so that the tasks that wait keep their order. If the queue is sorted, the
parts are those without and with a lower priority: the hint makes no difference, and the queue does
what `Waiting` says.

A barrier is put behind all tasks that wait, and none of them can get behind it (`Ahead.step`), so
that draining the queue waits for them, in a build in which it waits. The comment in the source also
says that no new task gets ahead of the barrier; `barrier_passed` is a run in which one does.
-/

namespace VosStack.Taskq

open Transition Queue

variable {τ : Type*} [DecidableEq τ] {taPriority : τ → ℕ} {queue : Taskqueue τ} {task : τ}

/-! ### The place of a task -/

omit [DecidableEq τ] in
/-- The loop passes the tasks whose priority is not lower. -/
theorem placeLoop_eq (priority : ℕ) (prev : Option τ) (rest : List τ) :
    placeLoop taPriority priority prev rest =
      (rest.takeWhile fun t => priority ≤ taPriority t).getLast?.or prev := by
  induction rest generalizing prev with
  | nil => rfl
  | cons ins rest ih =>
    rw [placeLoop]
    split_ifs with hlt
    · rw [List.takeWhile_cons_of_neg (by simpa using hlt)]
      rfl
    · rw [List.takeWhile_cons_of_pos (by simpa using hlt), ih, List.getLast?_cons]
      cases (rest.takeWhile fun t => priority ≤ taPriority t).getLast? <;> rfl

theorem insertAfter_append {prev : τ} {l : List τ} (r : List τ) (h : prev ∉ l) :
    insertAfter prev task (l ++ prev :: r) = l ++ prev :: task :: r := by
  induction l with
  | nil => exact if_pos rfl
  | cons x l ih =>
    have hne : x ≠ prev := fun heq => h (heq ▸ List.mem_cons_self)
    rw [List.cons_append, insertAfter, if_neg hne, ih fun hl => h (List.mem_cons_of_mem x hl)]
    rfl

/-- What holds of the links between two calls. -/
structure Linked (queue : Taskqueue τ) : Prop where
  nodup : queue.tqQueue.Nodup
  hint_mem : ∀ t, queue.tqHint = some t → t ∈ queue.tqQueue
  mem_iff : ∀ t, t ∈ queue.tqQueue ↔ queue.taPending t ≠ 0

/-- The tasks are sorted by priority. -/
def Sorted (taPriority : τ → ℕ) (q : List τ) : Prop :=
  q.Pairwise fun t t' => taPriority t' ≤ taPriority t

/-- The task is put between `l` and `r`. -/
structure Split (taPriority : τ → ℕ) (q : List τ) (task : τ) (l r : List τ) : Prop where
  append_eq : q = l ++ r
  lower : ∀ t, r.head? = some t → taPriority t < taPriority task
  not_lower : Sorted taPriority q → ∀ t ∈ l, taPriority task ≤ taPriority t

variable (taPriority) in
/-- The loop starts behind a part of the queue, at whose end `prev` is. -/
theorem Linked.placeStart_spec (h : Linked queue) (task : τ) :
    ∃ pre, queue.tqQueue = pre ++ (placeStart taPriority queue task).2 ∧
      (placeStart taPriority queue task).1 = pre.getLast? ∧
      (Sorted taPriority queue.tqQueue → ∀ t ∈ pre, taPriority task ≤ taPriority t) := by
  have hnil : ∃ pre, queue.tqQueue = pre ++ queue.tqQueue ∧ none = pre.getLast? ∧
      (Sorted taPriority queue.tqQueue → ∀ t ∈ pre, taPriority task ≤ taPriority t) :=
    ⟨[], rfl, rfl, fun _ t ht => absurd ht List.not_mem_nil⟩
  rw [placeStart]
  cases hhint : queue.tqHint with
  | none => exact hnil
  | some prev =>
    by_cases hle : taPriority task ≤ taPriority prev
    · simp only [if_pos hle]
      obtain ⟨pre, hpre⟩ := startingAt_suffix prev queue.tqQueue
      rw [startingAt_eq_cons (h.hint_mem prev hhint)] at hpre
      refine ⟨pre ++ [prev], by rw [List.append_assoc]; exact hpre.symm, by simp, ?_⟩
      intro hsorted t ht
      rcases List.mem_append.mp ht with ht | ht
      · rw [← hpre] at hsorted
        exact Nat.le_trans hle
          ((List.pairwise_append.mp hsorted).2.2 t ht prev List.mem_cons_self)
      · rw [List.mem_singleton.mp ht]
        exact hle
    · simp only [if_neg hle]
      exact hnil

variable (taPriority) in
/-- **Where a task is put.** -/
theorem Linked.linkTask_split (h : Linked queue) (task : τ) :
    ∃ l r, Split taPriority queue.tqQueue task l r ∧
      (linkTask taPriority queue task).tqQueue = l ++ task :: r := by
  rw [linkTask]
  split_ifs with hlast
  · refine ⟨queue.tqQueue, [], ⟨(List.append_nil _).symm, nofun, fun hsorted t ht => ?_⟩, rfl⟩
    obtain ⟨q, last, hq⟩ := (List.eq_nil_or_concat queue.tqQueue).resolve_left
      (List.ne_nil_of_mem ht)
    rw [List.concat_eq_append] at hq
    rw [hq] at hlast hsorted ht
    have hlast : taPriority task ≤ taPriority last := by simpa using hlast
    rcases List.mem_append.mp ht with ht | ht
    · exact Nat.le_trans hlast
        ((List.pairwise_append.mp hsorted).2.2 t ht last List.mem_cons_self)
    · rwa [List.mem_singleton.mp ht]
  · obtain ⟨pre, hq, hprev, hpre⟩ := h.placeStart_spec taPriority task
    -- wherever the loop started, it ends behind the last task of `pre` and what it passed
    simp only [placeLoop_eq, hprev, ← List.getLast?_append]
    generalize (placeStart taPriority queue task).2 = rest at hq
    have hrest := List.takeWhile_append_dropWhile
      (p := fun t => decide (taPriority task ≤ taPriority t)) (l := rest)
    have hlower := List.head?_dropWhile_not
      (fun t => decide (taPriority task ≤ taPriority t)) rest
    have hnot : ∀ t ∈ rest.takeWhile fun t => decide (taPriority task ≤ taPriority t),
        taPriority task ≤ taPriority t := fun t ht => by
      simpa using List.mem_takeWhile_imp ht
    generalize (rest.takeWhile fun t => decide (taPriority task ≤ taPriority t)) = l at *
    generalize (rest.dropWhile fun t => decide (taPriority task ≤ taPriority t)) = r at *
    have hsplit : queue.tqQueue = (pre ++ l) ++ r := by rw [hq, ← hrest, List.append_assoc]
    refine ⟨pre ++ l, r, ⟨hsplit, fun t ht => ?_, fun hsorted t ht => ?_⟩, ?_⟩
    · rw [ht] at hlower
      simpa using hlower
    · exact (List.mem_append.mp ht).elim (hpre hsorted t) (hnot t)
    · have hnodup := h.nodup
      rw [hsplit] at hnodup ⊢
      rcases List.eq_nil_or_concat (pre ++ l) with hnil | ⟨l₀, prev, hl⟩
      · rw [hnil]
        rfl
      · rw [List.concat_eq_append] at hl
        rw [hl] at hnodup ⊢
        have hprev : prev ∉ l₀ := fun hmem =>
          (List.nodup_append.mp (List.nodup_append.mp hnodup).1).2.2 prev hmem prev
            List.mem_cons_self rfl
        rw [List.getLast?_concat]
        simp only [List.append_assoc, List.singleton_append]
        exact insertAfter_append r hprev

/-- The hint is the old one or the new task. -/
theorem tqHint_linkTask {t : τ} (h : (linkTask taPriority queue task).tqHint = some t) :
    queue.tqHint = some t ∨ t = task := by
  rw [linkTask] at h
  split_ifs at h
  · exact .inl h
  · dsimp only at h
    split at h
    · exact .inr (Option.some.inj h).symm
    · exact .inl h

theorem calls_linkTask : (linkTask taPriority queue task).calls = queue.calls := by
  rw [linkTask]
  split_ifs
  · rfl
  · dsimp only
    split <;> rfl

omit [DecidableEq τ] in
/-- In a sorted queue the place is the one that is meant. -/
theorem Split.place_eq {q l r : List τ} (h : Split taPriority q task l r)
    (hsorted : Sorted taPriority q) : place taPriority task q = l ++ task :: r := by
  have hl : ∀ t ∈ l, decide (taPriority task ≤ taPriority t) = true := fun t ht =>
    decide_eq_true (h.not_lower hsorted t ht)
  rw [place, h.append_eq, List.takeWhile_append_of_pos hl, List.dropWhile_append_of_pos hl]
  cases r with
  | nil => simp
  | cons t r =>
    have ht : ¬decide (taPriority task ≤ taPriority t) = true := by
      simpa using h.lower t rfl
    simp [ht]

omit [DecidableEq τ] in
theorem Split.sorted {q l r : List τ} (h : Split taPriority q task l r)
    (hsorted : Sorted taPriority q) : Sorted taPriority (l ++ task :: r) := by
  have hl := h.not_lower hsorted
  rw [h.append_eq] at hsorted
  obtain ⟨hleft, hright, hcross⟩ := List.pairwise_append.mp hsorted
  have hr : ∀ t ∈ r, taPriority t ≤ taPriority task := by
    cases r with
    | nil => exact fun t ht => absurd ht List.not_mem_nil
    | cons t r =>
      have hlt := h.lower t rfl
      intro t' ht'
      rcases List.mem_cons.mp ht' with rfl | ht'
      · exact Nat.le_of_lt hlt
      · exact Nat.le_trans ((List.pairwise_cons.mp hright).1 t' ht') (Nat.le_of_lt hlt)
  refine List.pairwise_append.mpr
    ⟨hleft, List.pairwise_cons.mpr ⟨hr, hright⟩, fun t ht t' ht' => ?_⟩
  rcases List.mem_cons.mp ht' with rfl | ht'
  · exact hl t ht
  · exact hcross t ht t' ht'

/-! ### The links -/

omit [DecidableEq τ] in
theorem linked_taskqueueCreate : Linked (taskqueueCreate τ) :=
  ⟨List.nodup_nil, nofun, fun _ => iff_of_false List.not_mem_nil fun h => h rfl⟩

/-- A task is linked and counted. -/
theorem Linked.link (h : Linked queue) (hidle : queue.taPending task = 0) {queue' : Taskqueue τ}
    {l r : List τ} (hsplit : queue.tqQueue = l ++ r) (hq : queue'.tqQueue = l ++ task :: r)
    (hhint : ∀ t, queue'.tqHint = some t → queue.tqHint = some t ∨ t = task)
    (hpending : queue'.taPending = Function.update queue.taPending task 1) : Linked queue' := by
  have hmem : ∀ t, t ∈ queue'.tqQueue ↔ t = task ∨ t ∈ queue.tqQueue := by
    intro t
    rw [hq, hsplit, List.mem_append, List.mem_cons, List.mem_append]
    tauto
  have hnew : task ∉ queue.tqQueue := fun ht => (h.mem_iff task).mp ht hidle
  refine ⟨?_, fun t ht => (hmem t).mpr ((hhint t ht).symm.imp_right (h.hint_mem t)), fun t => ?_⟩
  · rw [hq, List.nodup_middle, ← hsplit]
    exact List.nodup_cons.mpr ⟨hnew, h.nodup⟩
  · rw [hmem, hpending, h.mem_iff]
    by_cases heq : t = task
    · subst heq
      rw [Function.update_self]
      exact iff_of_true (.inl rfl) Nat.one_ne_zero
    · rw [Function.update_of_ne heq]
      exact or_iff_right heq

/-- A task is unlinked. -/
theorem Linked.unlink (h : Linked queue) {queue' : Taskqueue τ}
    (hq : queue'.tqQueue = queue.tqQueue.erase task)
    (hhint : queue'.tqHint = clearHint queue.tqHint task)
    (hpending : queue'.taPending = Function.update queue.taPending task 0) : Linked queue' := by
  have hmem : ∀ t, t ∈ queue'.tqQueue ↔ t ≠ task ∧ t ∈ queue.tqQueue := fun t => by
    rw [hq, h.nodup.mem_erase_iff]
  refine ⟨hq ▸ h.nodup.erase task, fun t ht => (hmem t).mpr ?_, fun t => ?_⟩
  · rw [hhint, clearHint] at ht
    split_ifs at ht with heq
    exact ⟨fun htask => heq (htask ▸ ht), h.hint_mem t ht⟩
  · rw [hmem, hpending, h.mem_iff]
    by_cases heq : t = task
    · subst heq
      rw [Function.update_self]
      exact iff_of_false (fun hne => hne.1 rfl) fun hne => hne rfl
    · rw [Function.update_of_ne heq]
      exact and_iff_right heq

/-- How a call changes the queue. -/
theorem Linked.callStep {c : Call τ} {queue' : Taskqueue τ} (h : Linked queue)
    (hs : callStep taPriority queue c = some queue') : Linked queue' := by
  cases c with
  | enqueue task =>
    obtain rfl := Option.some.inj hs
    rw [taskqueueEnqueueLocked]
    split_ifs with hpending
    · refine ⟨h.nodup, h.hint_mem, fun t => ?_⟩
      change t ∈ queue.tqQueue ↔ Function.update _ _ _ t ≠ 0
      by_cases heq : t = task
      · subst heq
        rw [Function.update_self, h.mem_iff]
        refine iff_of_true hpending ?_
        rw [countPending]
        split_ifs <;> omega
      · rw [Function.update_of_ne heq, h.mem_iff]
    · obtain ⟨l, r, hsplit, hq⟩ := h.linkTask_split taPriority task
      exact h.link (not_not.mp hpending) hsplit.append_eq hq (fun t => tqHint_linkTask) rfl
  | run =>
    rw [Taskq.callStep, taskqueueRunTurn] at hs
    split at hs
    · exact absurd hs nofun
    · next task rest hq =>
      obtain rfl := Option.some.inj hs
      exact h.unlink (by rw [hq, List.erase_cons_head]) rfl rfl
  | cancel task =>
    obtain rfl := Option.some.inj hs
    rw [taskqueueCancelLocked]
    split_ifs
    · exact h.unlink rfl rfl rfl
    · exact h

theorem Linked.step {a : Action τ} {queue' : Taskqueue τ} (h : Linked queue)
    (hs : step taPriority queue a = some queue') : Linked queue' := by
  cases a with
  | call c => exact h.callStep hs
  | drain barrier =>
    rw [Taskq.step, taskqueueDrainTqQueue] at hs
    split_ifs at hs with hnew hempty
    · rwa [← Option.some.inj hs]
    · obtain rfl := Option.some.inj hs
      exact h.link hnew.1 (List.append_nil _).symm rfl
        (fun t ht => .inr (Option.some.inj ht).symm) rfl

/-! ### Without barriers -/

/-- One call does what is meant, and keeps the queue sorted. -/
theorem Linked.waiting_callStep (h : Linked queue) (hsorted : Sorted taPriority queue.tqQueue)
    (c : Call τ) :
    (Taskq.callStep taPriority queue c).map Taskqueue.waiting = queue.waiting.step taPriority c ∧
      ∀ queue', Taskq.callStep taPriority queue c = some queue' →
        Sorted taPriority queue'.tqQueue := by
  cases c with
  | enqueue task =>
    have hmem := h.mem_iff task
    rw [Taskq.callStep, taskqueueEnqueueLocked, Waiting.step]
    simp only [Taskqueue.waiting, hmem]
    split_ifs with hpending
    · exact ⟨rfl, fun _ heq => Option.some.inj heq ▸ hsorted⟩
    · obtain ⟨l, r, hsplit, hq⟩ := h.linkTask_split taPriority task
      refine ⟨?_, fun _ heq => ?_⟩
      · rw [hsplit.place_eq hsorted, ← hq]
        simp only [Option.map_some, Taskqueue.waiting, calls_linkTask]
      · rw [← Option.some.inj heq]
        exact hq ▸ hsplit.sorted hsorted
  | run =>
    rw [Taskq.callStep, taskqueueRunTurn, Waiting.step]
    simp only [Taskqueue.waiting]
    cases hq : queue.tqQueue with
    | nil => exact ⟨rfl, nofun⟩
    | cons task rest =>
      rw [hq] at hsorted
      exact ⟨rfl, fun _ heq => Option.some.inj heq ▸ (List.pairwise_cons.mp hsorted).2⟩
  | cancel task =>
    rw [Taskq.callStep, taskqueueCancelLocked, Waiting.step]
    split_ifs with hpending
    · exact ⟨rfl, fun _ heq => Option.some.inj heq ▸ hsorted.sublist List.erase_sublist⟩
    · have hzero : queue.taPending task = 0 := by omega
      have hnot : task ∉ queue.tqQueue := fun hin => (h.mem_iff task).mp hin hzero
      refine ⟨?_, fun _ heq => Option.some.inj heq ▸ hsorted⟩
      simp only [Taskqueue.waiting, Option.map_some, List.erase_of_not_mem hnot]
      rw [Function.update_eq_self_iff.mpr hzero.symm]

theorem Linked.waiting_exec (h : Linked queue) (hsorted : Sorted taPriority queue.tqQueue)
    (cs : List (Call τ)) :
    (exec (Taskq.callStep taPriority) queue cs).map Taskqueue.waiting =
      exec (Waiting.step taPriority) queue.waiting cs := by
  induction cs generalizing queue with
  | nil => rfl
  | cons c cs ih =>
    obtain ⟨hstep, hkeep⟩ := h.waiting_callStep hsorted c
    rw [exec, exec, ← hstep]
    cases hs : Taskq.callStep taPriority queue c with
    | none => rfl
    | some queue' => exact ih (h.callStep hs) (hkeep queue' hs)

/-- **The hint makes no difference.** -/
theorem waiting_exec_taskqueueCreate (taPriority : τ → ℕ) (cs : List (Call τ)) :
    (exec (callStep taPriority) (taskqueueCreate τ) cs).map Taskqueue.waiting =
      exec (Waiting.step taPriority) ⟨[], fun _ => 0, []⟩ cs :=
  linked_taskqueueCreate.waiting_exec List.Pairwise.nil cs

/-! ### With barriers -/

/-- What a step does to the queue: it puts tasks in, or takes the head out and calls it, or takes
out the task that is cancelled. -/
theorem Linked.step_cases {a : Action τ} {queue' : Taskqueue τ} (h : Linked queue)
    (hs : Taskq.step taPriority queue a = some queue') :
    queue.tqQueue.Sublist queue'.tqQueue ∧ queue'.calls = queue.calls ∨
      (∃ task pending, queue.tqQueue = task :: queue'.tqQueue ∧
        queue'.calls = queue.calls ++ [(task, pending)]) ∨
      ∃ task, a = .call (.cancel task) ∧ queue'.tqQueue = queue.tqQueue.erase task ∧
        queue'.calls = queue.calls := by
  rcases a with (task | _ | task) | barrier
  · obtain rfl := Option.some.inj hs
    left
    rw [taskqueueEnqueueLocked]
    split_ifs
    · exact ⟨List.Sublist.refl _, rfl⟩
    · obtain ⟨l, r, hsplit, hq⟩ := h.linkTask_split taPriority task
      refine ⟨?_, calls_linkTask⟩
      change List.Sublist _ (linkTask taPriority queue task).tqQueue
      rw [hq, hsplit.append_eq]
      exact List.Sublist.append (List.Sublist.refl l) (List.sublist_cons_self task r)
  · rw [Taskq.step, Taskq.callStep, taskqueueRunTurn] at hs
    split at hs
    · exact absurd hs nofun
    · next task rest hq =>
      obtain rfl := Option.some.inj hs
      exact .inr (.inl ⟨task, _, hq, rfl⟩)
  · obtain rfl := Option.some.inj hs
    rw [taskqueueCancelLocked]
    split_ifs
    · exact .inr (.inr ⟨task, rfl, rfl, rfl⟩)
    · exact .inl ⟨List.Sublist.refl _, rfl⟩
  · left
    rw [Taskq.step, taskqueueDrainTqQueue] at hs
    split_ifs at hs
    · obtain rfl := Option.some.inj hs
      exact ⟨List.Sublist.refl _, rfl⟩
    · obtain rfl := Option.some.inj hs
      exact ⟨List.sublist_append_left _ _, rfl⟩

/-- Since the calls `before`, the task has been called, or it is still ahead of the barrier. -/
def Ahead (before : List (τ × ℕ)) (task barrier : τ) (queue : Taskqueue τ) : Prop :=
  ∃ since, queue.calls = before ++ since ∧
    (task ∈ since.map Prod.fst ∨ [task, barrier].Sublist queue.tqQueue)

section

variable {before : List (τ × ℕ)} {barrier : τ}

theorem Ahead.step {a : Action τ} {queue' : Taskqueue τ} (ha : Ahead before task barrier queue)
    (h : Linked queue) (hs : Taskq.step taPriority queue a = some queue')
    (htask : a ≠ .call (.cancel task)) (hbarrier : a ≠ .call (.cancel barrier)) :
    Ahead before task barrier queue' := by
  obtain ⟨since, hcalls, hahead⟩ := ha
  rcases h.step_cases hs with ⟨hq, hsame⟩ | ⟨head, pending, hq, hmore⟩ | ⟨t, rfl, hq, hsame⟩
  · exact ⟨since, hsame.trans hcalls, hahead.imp_right fun hsub => hsub.trans hq⟩
  · refine ⟨since ++ [(head, pending)], by rw [hmore, hcalls, List.append_assoc], ?_⟩
    rw [List.map_append, List.mem_append, or_assoc]
    refine hahead.imp_right fun hsub => ?_
    rw [hq] at hsub
    -- the head is the task itself, or both are behind it
    cases hsub with
    | cons _ hsub => exact .inr hsub
    | cons_cons _ _ => exact .inl (List.mem_singleton.mpr rfl)
  · refine ⟨since, hsame.trans hcalls, hahead.imp_right fun hsub => ?_⟩
    have hnot : t ∉ [task, barrier] := by
      intro hmem
      rcases List.mem_pair.mp hmem with rfl | rfl
      · exact htask rfl
      · exact hbarrier rfl
    rw [hq, ← List.erase_of_not_mem hnot]
    exact hsub.erase t

theorem Ahead.exec {as : List (Action τ)} {queue' : Taskqueue τ}
    (ha : Ahead before task barrier queue) (h : Linked queue)
    (hexec : Transition.exec (Taskq.step taPriority) queue as = some queue')
    (htask : .call (.cancel task) ∉ as) (hbarrier : .call (.cancel barrier) ∉ as) :
    Ahead before task barrier queue' := by
  induction as generalizing queue with
  | nil => exact Option.some.inj hexec ▸ ha
  | cons a as ih =>
    obtain ⟨queue₁, hs, hexec⟩ := Option.bind_eq_some_iff.mp hexec
    rw [List.mem_cons, not_or] at htask hbarrier
    exact ih (ha.step h hs (Ne.symm htask.1) (Ne.symm hbarrier.1)) (h.step hs) hexec htask.2
      hbarrier.2

/-- The barrier is put behind all tasks. -/
theorem ahead_of_drain {queue' : Taskqueue τ} (ht : task ∈ queue.tqQueue)
    (hd : Taskq.step taPriority queue (.drain barrier) = some queue') :
    Ahead queue.calls task barrier queue' := by
  rw [Taskq.step, taskqueueDrainTqQueue] at hd
  split_ifs at hd with hnew hempty
  · exact absurd (hempty ▸ ht) List.not_mem_nil
  · obtain rfl := Option.some.inj hd
    refine ⟨[], (List.append_nil _).symm, .inr ?_⟩
    exact List.Sublist.append (List.singleton_sublist.mpr ht) (List.Sublist.refl [barrier])

/-- Draining waits for the tasks, if the call returns only when the barrier has been run. -/
theorem drainOk_plain (taPriority : τ → ℕ) : DrainOk taPriority .plain := by
  intro queue queue₁ queue' barrier as h hd hexec hbarrier hdone
  have hlinked : Linked queue :=
    Reach.induct h linked_taskqueueCreate fun _ _ _ hq _ hs => hq.step hs
  have hlinked' : Linked queue' :=
    Reach.induct (reachable_of_exec as hexec) (hlinked.step hd) fun _ _ _ hq _ hs => hq.step hs
  have hgone : barrier ∉ queue'.tqQueue := fun hmem => (hlinked'.mem_iff barrier).mp hmem hdone
  refine ⟨hgone, fun task ht htask => ?_⟩
  obtain ⟨since, hcalls, hahead⟩ :=
    (ahead_of_drain ht hd).exec (hlinked.step hd) hexec htask hbarrier
  rw [hcalls, List.drop_left]
  refine hahead.resolve_right fun hsub => hgone ?_
  exact hsub.subset (List.mem_cons_of_mem _ List.mem_cons_self)

end

/-- Five tasks, the second of which is the barrier. -/
def priorities (task : Fin 5) : ℕ := [5, ucharMax, 1, 3, 10].getD task 0

/-- The first task waits when the queue is drained. With `FSTACK` the call returns at once: the task
has not been called, and the barrier, a local of the call, is still in the queue. -/
theorem not_drainOk_fstack : ¬ DrainOk priorities .fstack := by
  intro hok
  have hreach : Reachable (step priorities) (taskqueueCreate (Fin 5)) _ :=
    reachable_of_exec [.call (.enqueue 0)] rfl
  have hgone := (hok _ _ _ 1 [] hreach rfl rfl (by decide) trivial).1
  exact hgone (by decide)

/-- **Draining the queue waits for its tasks exactly in a build without `FSTACK`.** -/
theorem drainOk_iff (build : Build) :
    (∀ (τ : Type) [DecidableEq τ] (taPriority : τ → ℕ), DrainOk taPriority build) ↔
      build = .plain := by
  constructor
  · intro hall
    cases build with
    | plain => rfl
    | fstack => exact absurd (hall (Fin 5) priorities) not_drainOk_fstack
  · rintro rfl τ _ taPriority
    exact drainOk_plain taPriority

/-- The last task is enqueued after the barrier and gets ahead of it: the third and the fourth one
have moved the hint behind the barrier. -/
theorem barrier_passed :
    (exec (step priorities) (taskqueueCreate (Fin 5))
      [.call (.enqueue 0), .drain 1, .call (.enqueue 2), .call (.enqueue 3),
        .call (.enqueue 4)]).map Taskqueue.tqQueue = some [4, 0, 1, 3, 2] := by
  decide

/-! ### The counters -/

/-- How often the task was enqueued, as its function has been told and as its counter says. -/
def enqueued (queue : Taskqueue τ) (task : τ) : ℕ :=
  ((queue.calls.filter fun call => call.1 = task).map Prod.snd).sum + queue.taPending task

theorem enqueued_taskqueueEnqueueLocked (queue : Taskqueue τ) {t : τ}
    (h : t = task → enqueued queue task < ushrtMax) :
    enqueued (taskqueueEnqueueLocked taPriority queue t) task =
      enqueued queue task + if t = task then 1 else 0 := by
  rw [enqueued] at h
  have hpending : (taskqueueEnqueueLocked taPriority queue t).calls = queue.calls ∧
      (taskqueueEnqueueLocked taPriority queue t).taPending task =
        queue.taPending task + if t = task then 1 else 0 := by
    rw [taskqueueEnqueueLocked]
    by_cases heq : t = task
    · subst heq
      have h := h rfl
      rw [if_pos rfl]
      split_ifs with hzero
      · exact ⟨rfl, (Function.update_self ..).trans (if_pos (by omega))⟩
      · refine ⟨calls_linkTask, (Function.update_self ..).trans ?_⟩
        omega
    · rw [if_neg heq]
      split_ifs
      · exact ⟨rfl, Function.update_of_ne (Ne.symm heq) ..⟩
      · exact ⟨calls_linkTask, Function.update_of_ne (Ne.symm heq) ..⟩
  rw [enqueued, enqueued, hpending.1, hpending.2, Nat.add_assoc]

/-- What the counter says is told to the function. -/
theorem enqueued_taskqueueRunTurn {queue' : Taskqueue τ}
    (hs : taskqueueRunTurn queue = some queue') : enqueued queue' task = enqueued queue task := by
  rw [taskqueueRunTurn] at hs
  split at hs
  · exact absurd hs nofun
  · next t rest hq =>
    obtain rfl := Option.some.inj hs
    simp only [enqueued, List.filter_append, List.map_append, List.sum_append]
    by_cases heq : t = task
    · subst heq
      simp
    · simp [heq, Function.update_of_ne (Ne.symm heq)]

theorem enqueued_callStep {c : Call τ} {queue' : Taskqueue τ}
    (hs : callStep taPriority queue c = some queue') (hcancel : c ≠ .cancel task)
    (h : c = .enqueue task → enqueued queue task < ushrtMax) :
    enqueued queue' task = enqueued queue task + if c = .enqueue task then 1 else 0 := by
  cases c with
  | enqueue t =>
    obtain rfl := Option.some.inj hs
    simpa using enqueued_taskqueueEnqueueLocked queue fun heq => h (heq ▸ rfl)
  | run => exact enqueued_taskqueueRunTurn hs
  | cancel t =>
    have hne : task ≠ t := fun heq => hcancel (heq ▸ rfl)
    have hother : Call.cancel t ≠ .enqueue task := nofun
    obtain rfl := Option.some.inj hs
    rw [if_neg hother, taskqueueCancelLocked]
    split_ifs
    · simp [enqueued, Function.update_of_ne hne]
    · rfl

theorem enqueued_exec {cs : List (Call τ)} {queue' : Taskqueue τ}
    (hexec : exec (callStep taPriority) queue cs = some queue') (hcancel : .cancel task ∉ cs)
    (h : enqueued queue task + cs.count (.enqueue task) ≤ ushrtMax) :
    enqueued queue' task = enqueued queue task + cs.count (.enqueue task) := by
  induction cs generalizing queue with
  | nil => exact Option.some.inj hexec ▸ rfl
  | cons c cs ih =>
    obtain ⟨queue₁, hs, hexec⟩ := Option.bind_eq_some_iff.mp hexec
    rw [List.mem_cons, not_or] at hcancel
    simp only [List.count_cons, beq_iff_eq] at h ⊢
    have hone := enqueued_callStep hs (Ne.symm hcancel.1) fun heq => by
      rw [if_pos heq] at h
      omega
    rw [ih hexec hcancel.2 (by omega), hone]
    omega

/-- **No call of `taskqueue_enqueue` is lost.** Of a task that was not cancelled and not enqueued
more often than its counter can hold, the function has been told of all calls but those that the
counter still has. -/
theorem enqueued_eq_count {cs : List (Call τ)}
    (hexec : exec (callStep taPriority) (taskqueueCreate τ) cs = some queue)
    (hcancel : .cancel task ∉ cs) (h : cs.count (.enqueue task) ≤ ushrtMax) :
    ((queue.calls.filter fun call => call.1 = task).map Prod.snd).sum + queue.taPending task =
      cs.count (.enqueue task) := by
  have hzero : enqueued (taskqueueCreate τ) task = 0 := rfl
  have hcount := enqueued_exec hexec hcancel (by omega)
  rwa [hzero, Nat.zero_add] at hcount

/-- The task is enqueued twice before it is called, and once more after it. -/
theorem enqueued_eq_count_priorities :
    ∃ queue,
      exec (callStep priorities) (taskqueueCreate (Fin 5))
        [.enqueue 0, .enqueue 0, .run, .enqueue 0] = some queue ∧
      queue.calls = [(0, 2)] ∧
      ((queue.calls.filter fun call => call.1 = 0).map Prod.snd).sum + queue.taPending 0 = 3 :=
  ⟨_, rfl, rfl,
    enqueued_eq_count
      (rfl : exec (callStep priorities) _ [.enqueue 0, .enqueue 0, .run, .enqueue 0] = _)
      (by decide) (by decide)⟩

end VosStack.Taskq
