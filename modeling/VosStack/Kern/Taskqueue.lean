import VosStack.Queue.Cursor
import VosStack.Transition.Run
import Mathlib.Logic.Function.Basic

/-!
# Task queues

The queue of `subr_taskqueue.c`. Tasks have priorities; a task that is put into the queue goes
behind all tasks whose priority is not lower. `tq_hint` remembers where the last task was put, so
that the search for the place need not start at the head. A task that is already waiting is only
counted.

`taskqueue_drain_all` puts a barrier at the end of the queue and waits until it has come to the
head. The barrier has the highest priority although it is last: with barriers the queue is no
longer sorted. It is a local variable, and the waiting is done by `TQ_SLEEP`. That is a `break` in a
build with `FSTACK`, which the Makefile defines: the call returns at once and leaves its barrier in
the queue.

Each call is one step here: `tq_mutex` is taken as exclusive, and for a build without `FSTACK`
`msleep` as FreeBSD documents it.
-/

namespace VosStack.Taskq

open Transition Queue

/-- `USHRT_MAX`. -/
def ushrtMax : ℕ := 65535

/-- `UCHAR_MAX`. -/
def ucharMax : ℕ := 255

/-- `struct taskqueue`, with the field `ta_pending` of the tasks and the calls of `ta_func` so far
with their argument `pending`. -/
structure Taskqueue (τ : Type*) where
  tqQueue : List τ
  tqHint : Option τ
  taPending : τ → ℕ
  calls : List (τ × ℕ)

/-- A new queue. -/
def taskqueueCreate (τ : Type*) : Taskqueue τ := ⟨[], none, fun _ => 0, []⟩

variable {τ : Type*} [DecidableEq τ] (taPriority : τ → ℕ)

/-- The loop that looks for the place of a task: the task to insert it after. -/
def placeLoop (priority : ℕ) : Option τ → List τ → Option τ
  | prev, [] => prev
  | prev, ins :: rest =>
    if taPriority ins < priority then prev else placeLoop priority (some ins) rest

/-- `STAILQ_INSERT_AFTER`. -/
def insertAfter (prev task : τ) : List τ → List τ
  | [] => []
  | x :: q => if x = prev then x :: task :: q else x :: insertAfter prev task q

/-- `prev` and the tasks from `ins` on, with which the loop begins. -/
def placeStart (queue : Taskqueue τ) (task : τ) : Option τ × List τ :=
  match queue.tqHint with
  | none => (none, queue.tqQueue)
  | some prev =>
    if taPriority task ≤ taPriority prev then (some prev, (startingAt prev queue.tqQueue).tail)
    else (none, queue.tqQueue)

/-- The part of `taskqueue_enqueue_locked` that links the task. -/
def linkTask (queue : Taskqueue τ) (task : τ) : Taskqueue τ :=
  if queue.tqQueue.getLast?.all fun prev => taPriority task ≤ taPriority prev then
    { queue with tqQueue := queue.tqQueue ++ [task] }
  else
    let start := placeStart taPriority queue task
    match placeLoop taPriority (taPriority task) start.1 start.2 with
    | some prev =>
      { queue with tqQueue := insertAfter prev task queue.tqQueue, tqHint := some task }
    | none => { queue with tqQueue := task :: queue.tqQueue }

/-- What an enqueued task's counter becomes when it is already waiting. -/
def countPending (pending : ℕ) : ℕ := if pending < ushrtMax then pending + 1 else pending

/-- `taskqueue_enqueue_locked`. -/
def taskqueueEnqueueLocked (queue : Taskqueue τ) (task : τ) : Taskqueue τ :=
  if queue.taPending task ≠ 0 then
    { queue with
      taPending := Function.update queue.taPending task (countPending (queue.taPending task)) }
  else
    { linkTask taPriority queue task with taPending := Function.update queue.taPending task 1 }

/-- `tq_hint` after the task has been unlinked. -/
def clearHint (hint : Option τ) (task : τ) : Option τ := if hint = some task then none else hint

/-- One turn of the loop of `taskqueue_run_locked`; it ends when the queue is empty. -/
def taskqueueRunTurn (queue : Taskqueue τ) : Option (Taskqueue τ) :=
  match queue.tqQueue with
  | [] => none
  | task :: rest =>
    some
      { tqQueue := rest
        tqHint := clearHint queue.tqHint task
        taPending := Function.update queue.taPending task 0
        calls := queue.calls ++ [(task, queue.taPending task)] }

/-- `taskqueue_cancel_locked`. -/
def taskqueueCancelLocked (queue : Taskqueue τ) (task : τ) : Taskqueue τ :=
  if 0 < queue.taPending task then
    { queue with
      tqQueue := queue.tqQueue.erase task
      tqHint := clearHint queue.tqHint task
      taPending := Function.update queue.taPending task 0 }
  else queue

/-- `taskqueue_drain_tq_queue` up to its loop. A barrier is a new task of the highest priority. -/
def taskqueueDrainTqQueue (queue : Taskqueue τ) (barrier : τ) : Option (Taskqueue τ) :=
  if queue.taPending barrier = 0 ∧ taPriority barrier = ucharMax then
    if queue.tqQueue = [] then some queue
    else
      some
        { queue with
          tqQueue := queue.tqQueue ++ [barrier]
          tqHint := some barrier
          taPending := Function.update queue.taPending barrier 1 }
  else none

/-- The builds: without and with `FSTACK`. -/
inductive Build
  | plain
  | fstack
  deriving DecidableEq, Repr

/-- The loop `while (t_barrier.ta_pending != 0) TQ_SLEEP(...)` of `taskqueue_drain_tq_queue` may be
left in this state. -/
def Build.drainReturns (queue : Taskqueue τ) (barrier : τ) : Build → Prop
  | .plain => queue.taPending barrier = 0
  | .fstack => True

/-- The calls that do not wait. -/
inductive Call (τ : Type*)
  | enqueue (task : τ)
  | run
  | cancel (task : τ)
  deriving DecidableEq, Repr

/-- One call. -/
def callStep (queue : Taskqueue τ) : Call τ → Option (Taskqueue τ)
  | .enqueue task => some (taskqueueEnqueueLocked taPriority queue task)
  | .run => taskqueueRunTurn queue
  | .cancel task => some (taskqueueCancelLocked queue task)

/-- These calls, and the beginning of a drain. -/
inductive Action (τ : Type*)
  | call (c : Call τ)
  | drain (barrier : τ)
  deriving DecidableEq, Repr

/-- One step of the queue. -/
def step (queue : Taskqueue τ) : Action τ → Option (Taskqueue τ)
  | .call c => callStep taPriority queue c
  | .drain barrier => taskqueueDrainTqQueue taPriority queue barrier

/-- **What draining is for.** When the call returns, its barrier is out of the queue, and all tasks
that waited when it began have been called since, unless they were cancelled. Other threads go on
using the queue. -/
def DrainOk (build : Build) : Prop :=
  ∀ (queue queue₁ queue' : Taskqueue τ) (barrier : τ) (as : List (Action τ)),
    Reachable (step taPriority) (taskqueueCreate τ) queue →
    step taPriority queue (.drain barrier) = some queue₁ →
    exec (step taPriority) queue₁ as = some queue' → .call (.cancel barrier) ∉ as →
    build.drainReturns queue' barrier →
    barrier ∉ queue'.tqQueue ∧
      ∀ task ∈ queue.tqQueue, .call (.cancel task) ∉ as →
        task ∈ (queue'.calls.drop queue.calls.length).map Prod.fst

/-! ### What the queue is for -/

/-- The tasks that wait, without a hint. -/
structure Waiting (τ : Type*) where
  tasks : List τ
  pending : τ → ℕ
  calls : List (τ × ℕ)

/-- Behind all tasks whose priority is not lower, ahead of the others. -/
def place (task : τ) (tasks : List τ) : List τ :=
  tasks.takeWhile (fun t => taPriority task ≤ taPriority t) ++
    task :: tasks.dropWhile fun t => taPriority task ≤ taPriority t

/-- One call, as it is meant. -/
def Waiting.step (w : Waiting τ) : Call τ → Option (Waiting τ)
  | .enqueue task =>
    if task ∈ w.tasks then
      some { w with pending := Function.update w.pending task (countPending (w.pending task)) }
    else
      some { w with
        tasks := place taPriority task w.tasks
        pending := Function.update w.pending task 1 }
  | .run =>
    match w.tasks with
    | [] => none
    | task :: rest =>
      some ⟨rest, Function.update w.pending task 0, w.calls ++ [(task, w.pending task)]⟩
  | .cancel task =>
    some { w with tasks := w.tasks.erase task, pending := Function.update w.pending task 0 }

/-- The queue without its hint. -/
def Taskqueue.waiting (queue : Taskqueue τ) : Waiting τ :=
  ⟨queue.tqQueue, queue.taPending, queue.calls⟩

end VosStack.Taskq
