import Mathlib.Data.List.Nodup
import VosStack.Table.Index
import VosStack.Transition.Run

/-!
# The host thread manager

`thread_create` starts an OS thread for a thread structure `td` of the stack and enters it in a
table; `thread_destroy` posts an event to the main thread that takes it out again. The main thread
runs `CreateThread` at once; another thread posts an event **to itself** (the variable is called
`pmaincurrent` and holds the current thread) and runs it from its event loop.

`CreateThread` looks for `td` in the table, starts the OS thread and adds the entry. Between these
three the other threads run, so they are three steps here. A thread runs one `CreateThread` at a
time, and the main thread handles no event inside one.

The manager does what it is asked to do as long as the table is **fresh** at each creation
(`Fresh`): a `td` that is still in the table, because the event that destroys its predecessor was
not handled yet, is silently not started, and an OS thread that could not be started is entered all
the same.

Callers are threads of `CAWThreadManager`. Functions, arguments and thread structures are numbers;
the main thread has the number 0. `new` does not return `NULL`.
-/

namespace VosStack.Ports

open Transition

/-- What `thread_create` is called with. -/
structure Request where
  func : ℕ
  init : ℕ
  arg : ℕ
  newtd : ℕ
  deriving DecidableEq, Repr

/-- `CFBPortThreadItem`, with the number of the call of `thread_create` it was made for. -/
structure Item where
  /-- `m_id` -/
  id : UInt32
  call : ℕ
  /-- `m_func`, `m_init`, `m_arg` and `m_newtd` -/
  req : Request
  deriving DecidableEq, Repr

/-- How far a call of `thread_create` has come. -/
inductive Stage
  /-- the event is in the queue of the thread `t` -/
  | posted (t : ℕ)
  /-- `t` has made the item and is about to start the OS thread -/
  | made (t : ℕ) (id : UInt32)
  /-- `pthread_create` succeeded or not, and `t` is about to add the entry -/
  | started (t : ℕ) (id : UInt32) (ok : Bool)
  /-- `CreateThread` is over; `none` if it found `td` in the table -/
  | returned (ok : Option Bool)
  deriving DecidableEq, Repr

namespace Stage

/-- An OS thread was started. -/
def running : Stage → Bool
  | .posted _ | .made _ _ => false
  | .started _ _ ok => ok
  | .returned ok => ok == some true

/-- The thread `t` is inside `CreateThread`. -/
def busy (t : ℕ) : Stage → Bool
  | .posted _ | .returned _ => false
  | .made t' _ | .started t' _ _ => t' == t

/-- The call has to have an OS thread by now: none could not be started, and `CreateThread` has
come past the place where it is. -/
def due : Stage → Bool
  | .posted _ | .made _ _ => false
  | .started _ _ ok => ok
  | .returned ok => ok != some false

end Stage

/-- A call of `thread_create`. -/
structure Call where
  req : Request
  stage : Stage
  deriving DecidableEq, Repr

/-- What an OS thread calls. -/
inductive Ran
  | init (f td : ℕ)
  | func (f arg : ℕ)
  deriving DecidableEq, Repr

/-- An OS thread that runs `MainThreadFun`, with what it has called. -/
structure OsThread where
  item : Item
  ran : List Ran
  deriving DecidableEq, Repr

/-- The next call of an OS thread: `OnThreadInit`, then `OnThreadRun`. -/
def OsThread.next (th : OsThread) : Option OsThread :=
  let r := th.item.req
  match th.ran with
  | [] => some { th with ran := [.init r.init r.newtd] }
  | [x] => some { th with ran := [x, .func r.func r.arg] }
  | _ => none

/-- What an OS thread is to call, in this order. -/
def Request.program (r : Request) : List Ran := [.init r.init r.newtd, .func r.func r.arg]

/-- `CFBPortThreadManager`, the event queues and the OS threads. -/
structure Manager where
  /-- `m_idbase` -/
  idbase : UInt32
  /-- `m_threadmap`, by the `m_id` of its items -/
  threadmap : List Item
  /-- all calls of `thread_create`, by number -/
  calls : List Call
  /-- the destroy events in the queue of the main thread -/
  destroys : List ℕ
  threads : List OsThread
  deriving DecidableEq, Repr

/-- What can happen next. -/
inductive Action
  /-- the thread `t` calls `thread_create` -/
  | threadCreate (t : ℕ) (r : Request)
  /-- the event of the call `k` is handled -/
  | fireCreate (k : ℕ)
  /-- `StartThread` of the call `k`; `ok` is whether `pthread_create` succeeds -/
  | startThread (k : ℕ) (ok : Bool)
  /-- `AddThread` of the call `k` -/
  | addThread (k : ℕ)
  | threadDestroy (td : ℕ)
  /-- a destroy event is handled -/
  | fireDestroy (td : ℕ)
  /-- the OS thread `i` does its next call -/
  | run (i : ℕ)
  deriving DecidableEq, Repr

namespace Manager

/-- At the start. -/
def init : Manager := ⟨0, [], [], [], []⟩

/-- The thread `t` is not inside `CreateThread`. -/
def idle (m : Manager) (t : ℕ) : Bool := m.calls.all fun c => !c.stage.busy t

/-- `FindThreadByTid`. -/
def findThreadByTid (m : Manager) (td : ℕ) : Option Item :=
  m.threadmap.find? fun i => i.req.newtd == td

/-- `RemoveThread`. -/
def removeThread (m : Manager) (id : UInt32) : Manager :=
  { m with threadmap := m.threadmap.filter fun i => i.id != id }

/-- `AddThread`: an entry with the same `m_id` is replaced. -/
def addThread (m : Manager) (item : Item) : Manager :=
  { m with threadmap := item :: m.threadmap.filter fun i => i.id != item.id }

/-- `CreateThread` by the thread `t`, up to `StartThread`. -/
def createThread (m : Manager) (t : ℕ) (r : Request) : Manager × Stage :=
  match m.findThreadByTid r.newtd with
  | some _ => (m, .returned none)
  | none => ({ m with idbase := m.idbase + 1 }, .made t m.idbase)

/-- `DestroyThread`. -/
def destroyThread (m : Manager) (td : ℕ) : Manager :=
  match m.findThreadByTid td with
  | none => m
  | some item => m.removeThread item.id

/-- The call `k` gets to the stage `st`. -/
def proceed (m : Manager) (k : ℕ) (r : Request) (st : Stage) : Manager :=
  { m with calls := m.calls.set k ⟨r, st⟩ }

/-- One step. -/
def step (m : Manager) : Action → Option Manager
  | .threadCreate t r =>
      if m.idle t then
        if t = 0 then
          let (m, st) := m.createThread t r
          some { m with calls := m.calls ++ [⟨r, st⟩] }
        else some { m with calls := m.calls ++ [⟨r, .posted t⟩] }
      else none
  | .fireCreate k =>
      match m.calls[k]? with
      | some ⟨r, .posted t⟩ =>
          if m.idle t then
            let (m, st) := m.createThread t r
            some (m.proceed k r st)
          else none
      | _ => none
  | .startThread k ok =>
      match m.calls[k]? with
      | some ⟨r, .made t id⟩ =>
          let m := m.proceed k r (.started t id ok)
          some { m with
            threads := if ok then m.threads ++ [⟨⟨id, k, r⟩, []⟩] else m.threads }
      | _ => none
  | .addThread k =>
      match m.calls[k]? with
      | some ⟨r, .started _ id ok⟩ =>
          some ((m.addThread ⟨id, k, r⟩).proceed k r (.returned (some ok)))
      | _ => none
  | .threadDestroy td => some { m with destroys := m.destroys ++ [td] }
  | .fireDestroy td =>
      if td ∈ m.destroys ∧ m.idle 0 then
        some { m.destroyThread td with destroys := m.destroys.erase td }
      else none
  | .run i => do
      let th ← m.threads[i]?
      let th' ← th.next
      some { m with threads := m.threads.set i th' }

/-- The items of the OS threads started. -/
def items (m : Manager) : List Item := m.threads.map OsThread.item

/-- What the OS threads started for the call `k` were asked to run. -/
def startedFor (items : List Item) (k : ℕ) : List Request :=
  (items.filter fun i => i.call == k).map Item.req

/-- **The manager runs what it is asked to run.** -/
structure Faithful (m : Manager) : Prop where
  /-- a call whose OS thread creation did not fail has exactly one OS thread, its own -/
  starts : ∀ k c, m.calls[k]? = some c → c.stage.due = true → startedFor m.items k = [c.req]
  /-- which calls `init(td)` and then `func(arg)` -/
  ran : ∀ th ∈ m.threads, th.ran <+: th.item.req.program
  /-- a call whose OS thread could not be started leaves no entry -/
  noEntry : ∀ k c, m.calls[k]? = some c → c.stage = .returned (some false) →
    ∀ i ∈ m.threadmap, i.call ≠ k
  /-- no two entries are for one `td` -/
  single : (m.threadmap.map fun i => i.req.newtd).Nodup

/-- The condition on a step: `td` is not in the table when `CreateThread` looks for it, and when
the entry is added, the OS thread was started and no entry under another id has the same `td`. -/
def Fresh (m : Manager) : Action → Prop
  | .threadCreate t r => t = 0 → m.findThreadByTid r.newtd = none
  | .fireCreate k => ∀ c ∈ m.calls[k]?, m.findThreadByTid c.req.newtd = none
  | .addThread k => ∀ c ∈ m.calls[k]?, ∀ t id ok, c.stage = .started t id ok →
      ok = true ∧ ∀ i ∈ m.threadmap, i.id ≠ id → i.req.newtd ≠ c.req.newtd
  | .startThread _ _ | .threadDestroy _ | .fireDestroy _ | .run _ => True

variable {m m' : Manager} {k : ℕ} {c : Call} {r : Request}

/-! ### Calls and OS threads -/

/-- The OS threads are those of the calls that have one, and each of these has one. -/
structure Tally (calls : List Call) (items : List Item) : Prop where
  startedFor : ∀ k c, calls[k]? = some c →
    startedFor items k = if c.stage.running then [c.req] else []
  lt : ∀ i ∈ items, i.call < calls.length

theorem startedFor_eq_nil {items : List Item} (h : ∀ i ∈ items, i.call ≠ k) :
    startedFor items k = [] := by
  rw [startedFor, List.map_eq_nil_iff, List.filter_eq_nil_iff]
  intro i hi
  rw [beq_iff_eq]
  exact h i hi

theorem startedFor_snoc (items : List Item) (i : Item) (k : ℕ) :
    startedFor (items ++ [i]) k = startedFor items k ++ if i.call = k then [i.req] else [] := by
  rw [startedFor, List.filter_append, List.map_append]
  congr 1
  split_ifs with h <;> simp [h]

variable {calls : List Call} {items : List Item} {st : Stage}

/-- A new call has no OS thread yet. -/
theorem Tally.append (h : Tally calls items) (hst : st.running = false) :
    Tally (calls ++ [⟨r, st⟩]) items where
  startedFor := by
    intro k c hk
    rcases Table.getElem?_snoc_cases hk with ⟨rfl, rfl⟩ | hk
    · rw [hst]
      exact startedFor_eq_nil fun i hi => Nat.ne_of_lt (h.lt i hi)
    · exact h.startedFor k c hk
  lt := fun i hi => by
    rw [List.length_append]
    exact Nat.lt_add_right _ (h.lt i hi)

/-- A call proceeds without starting an OS thread. -/
theorem Tally.set (h : Tally calls items) (hk : calls[k]? = some c)
    (hst : st.running = c.stage.running) : Tally (calls.set k ⟨c.req, st⟩) items where
  startedFor := by
    intro j d hj
    rcases Table.getElem?_set_cases hj with ⟨rfl, rfl⟩ | ⟨-, hj⟩
    · rw [hst]
      exact h.startedFor j c hk
    · exact h.startedFor j d hj
  lt := fun i hi => by
    rw [List.length_set]
    exact h.lt i hi

/-- A call proceeds by starting its OS thread. -/
theorem Tally.start {id : UInt32} (h : Tally calls items) (hk : calls[k]? = some c)
    (hold : c.stage.running = false) (hst : st.running = true) :
    Tally (calls.set k ⟨c.req, st⟩) (items ++ [⟨id, k, c.req⟩]) where
  startedFor := by
    intro j d hj
    rw [startedFor_snoc]
    rcases Table.getElem?_set_cases hj with ⟨rfl, rfl⟩ | ⟨hne, hj⟩
    · rw [hst, h.startedFor j c hk, hold]
      simp
    · rw [h.startedFor j d hj, if_neg hne.symm, List.append_nil]
  lt := by
    rw [List.length_set, forall_mem_snoc_iff h.lt]
    exact (List.getElem?_eq_some_iff.mp hk).1

/-! ### The invariant -/

/-- What holds as long as the table is fresh. -/
structure Sound (m : Manager) : Prop where
  tally : Tally m.calls m.items
  returned : ∀ c ∈ m.calls, ∀ ok, c.stage = .returned ok → ok = some true
  ran : ∀ th ∈ m.threads, th.ran <+: th.item.req.program
  single : (m.threadmap.map fun i => i.req.newtd).Nodup

theorem sound_init : Sound init where
  tally := ⟨fun k c hk => absurd hk (by simp [init]), fun i hi => absurd hi (List.not_mem_nil)⟩
  returned := fun c hc => absurd hc List.not_mem_nil
  ran := fun th hth => absurd hth List.not_mem_nil
  single := List.nodup_nil

theorem Sound.faithful (h : m.Sound) : m.Faithful where
  starts := by
    intro k c hk hdue
    have hrun : c.stage.running = true := by
      cases hst : c.stage with
      | posted | made => exact absurd (hst ▸ hdue) (by simp [Stage.due])
      | started t id ok => exact (congrArg Stage.due hst).symm.trans hdue
      | returned ok =>
        rw [h.returned c (List.mem_of_getElem? hk) ok hst]
        rfl
    rw [h.tally.startedFor k c hk, hrun]
    rfl
  ran := h.ran
  noEntry := by
    intro k c hk hst
    exact absurd (h.returned c (List.mem_of_getElem? hk) _ hst) (by decide)
  single := h.single

/-- Entries may be taken out. -/
theorem nodup_removeThread (h : (m.threadmap.map fun i => i.req.newtd).Nodup) (id : UInt32) :
    ((m.removeThread id).threadmap.map fun i => i.req.newtd).Nodup :=
  h.sublist (List.filter_sublist.map _)

/-- An added entry is alone with its `td` exactly when no entry under another id has it. -/
theorem nodup_addThread_iff (h : (m.threadmap.map fun i => i.req.newtd).Nodup) (item : Item) :
    ((m.addThread item).threadmap.map fun i => i.req.newtd).Nodup ↔
      ∀ i ∈ m.threadmap, i.id ≠ item.id → i.req.newtd ≠ item.req.newtd := by
  have hrest := nodup_removeThread h item.id
  rw [addThread, List.map_cons, List.nodup_cons]
  refine (and_iff_left hrest).trans ?_
  simp

/-! ### Steps -/

/-- `CreateThread` finds `td`, and that is all. -/
theorem createThread_of_found {t : ℕ} (h : m.findThreadByTid r.newtd ≠ none) :
    m.createThread t r = (m, .returned none) := by
  obtain ⟨item, hitem⟩ := Option.ne_none_iff_exists'.mp h
  rw [createThread, hitem]

/-- `CreateThread` makes an item with a new id. -/
theorem createThread_of_fresh {t : ℕ} (h : m.findThreadByTid r.newtd = none) :
    m.createThread t r = ({ m with idbase := m.idbase + 1 }, .made t m.idbase) := by
  rw [createThread, h]

theorem Sound.append (h : m.Sound) (hst : st.running = false) (hret : ∀ ok, st ≠ .returned ok) :
    Sound { m with calls := m.calls ++ [⟨r, st⟩] } where
  tally := h.tally.append hst
  returned := (forall_mem_snoc_iff h.returned).mpr fun ok hok => absurd hok (hret ok)
  ran := h.ran
  single := h.single

/-- The stages of the calls stay good when the call `k` gets to a good one. -/
theorem Sound.returned_set (h : m.Sound) (hret : ∀ ok, st = .returned ok → ok = some true) :
    ∀ c ∈ m.calls.set k ⟨r, st⟩, ∀ ok, c.stage = .returned ok → ok = some true := by
  intro c hc ok hok
  rcases List.mem_or_eq_of_mem_set hc with hc | rfl
  · exact h.returned c hc ok hok
  · exact hret ok hok

theorem Sound.proceed (h : m.Sound) (hk : m.calls[k]? = some c)
    (hst : st.running = c.stage.running) (hret : ∀ ok, st = .returned ok → ok = some true) :
    (m.proceed k c.req st).Sound where
  tally := h.tally.set hk hst
  returned := h.returned_set hret
  ran := h.ran
  single := h.single

theorem Sound.withIdbase (h : m.Sound) (id : UInt32) : Sound { m with idbase := id } :=
  ⟨h.tally, h.returned, h.ran, h.single⟩

theorem Sound.startThread {t : ℕ} {id : UInt32} (h : m.Sound)
    (hk : m.calls[k]? = some ⟨r, .made t id⟩) :
    Sound { m.proceed k r (.started t id true) with
      threads := m.threads ++ [⟨⟨id, k, r⟩, []⟩] } where
  tally := by
    rw [items, List.map_append]
    exact h.tally.start hk rfl rfl
  returned := h.returned_set fun _ hok => absurd hok nofun
  ran := (forall_mem_snoc_iff h.ran).mpr List.nil_prefix
  single := h.single

theorem Sound.addThread {t : ℕ} {id : UInt32} (h : m.Sound)
    (hk : m.calls[k]? = some ⟨r, .started t id true⟩)
    (hfree : ∀ i ∈ m.threadmap, i.id ≠ id → i.req.newtd ≠ r.newtd) :
    ((m.addThread ⟨id, k, r⟩).proceed k r (.returned (some true))).Sound where
  tally := h.tally.set hk rfl
  returned := h.returned_set fun _ hok => (Stage.returned.inj hok).symm
  ran := h.ran
  single := (nodup_addThread_iff h.single ⟨id, k, r⟩).mpr hfree

theorem Sound.destroyThread (h : m.Sound) (td : ℕ) (ds : List ℕ) :
    Sound { m.destroyThread td with destroys := ds } := by
  rw [Manager.destroyThread]
  split
  · exact ⟨h.tally, h.returned, h.ran, h.single⟩
  · exact ⟨h.tally, h.returned, h.ran, nodup_removeThread h.single _⟩

/-- `OnThreadInit` comes first and `OnThreadRun` second. -/
theorem next_spec {th th' : OsThread} (hran : th.ran <+: th.item.req.program)
    (h : th.next = some th') : th'.item = th.item ∧ th'.ran <+: th.item.req.program := by
  rw [OsThread.next] at h
  split at h
  · obtain rfl := Option.some.inj h
    exact ⟨rfl, List.prefix_append _ _⟩
  · next x hx =>
    obtain rfl := Option.some.inj h
    rw [hx, Request.program, List.cons_prefix_cons] at hran
    obtain ⟨rfl, -⟩ := hran
    exact ⟨rfl, List.prefix_rfl⟩
  · exact absurd h nofun

theorem Sound.run {i : ℕ} {th th' : OsThread} (h : m.Sound) (hi : m.threads[i]? = some th)
    (hnext : th.next = some th') : Sound { m with threads := m.threads.set i th' } := by
  obtain ⟨hitem, hran⟩ := next_spec (h.ran th (List.mem_of_getElem? hi)) hnext
  have hitems : (m.threads.set i th').map OsThread.item = m.items := by
    obtain ⟨hlt, hget⟩ := List.getElem?_eq_some_iff.mp hi
    rw [List.map_set, hitem, ← hget, ← List.getElem_map OsThread.item, List.set_getElem_self]
    · rfl
    · rwa [List.length_map]
  refine ⟨?_, h.returned, fun t ht => ?_, h.single⟩
  · rw [items, hitems]
    exact h.tally
  · rcases List.mem_or_eq_of_mem_set ht with ht | rfl
    · exact h.ran t ht
    · rwa [hitem]

/-- **Step.** A fresh step keeps the invariant. -/
theorem Sound.step {a : Action} (h : m.Sound) (hfresh : m.Fresh a) (hs : m.step a = some m') :
    m'.Sound := by
  cases a with
  | threadCreate t r =>
    obtain ⟨-, hs⟩ := Option.ite_none_right_eq_some.mp hs
    split at hs
    · next ht =>
      rw [createThread_of_fresh (hfresh ht)] at hs
      obtain rfl := Option.some.inj hs
      exact (h.withIdbase _).append rfl nofun
    · obtain rfl := Option.some.inj hs
      exact h.append rfl nofun
  | fireCreate k =>
    rw [Manager.step] at hs
    split at hs
    · next r t hk =>
      obtain ⟨-, hs⟩ := Option.ite_none_right_eq_some.mp hs
      rw [createThread_of_fresh (hfresh _ hk)] at hs
      obtain rfl := Option.some.inj hs
      have hrun : (Stage.made t m.idbase).running = (Stage.posted t).running := rfl
      exact (h.withIdbase (m.idbase + 1)).proceed hk hrun nofun
    · exact absurd hs nofun
  | startThread k ok =>
    rw [Manager.step] at hs
    split at hs
    · next r t id hk =>
      obtain rfl := Option.some.inj hs
      cases ok with
      | true => exact h.startThread hk
      | false => exact h.proceed hk rfl nofun
    · exact absurd hs nofun
  | addThread k =>
    rw [Manager.step] at hs
    split at hs
    · next r t id ok hk =>
      obtain rfl := Option.some.inj hs
      obtain ⟨rfl, hfree⟩ := hfresh _ hk t id ok rfl
      exact h.addThread hk hfree
    · exact absurd hs nofun
  | threadDestroy td =>
    obtain rfl := Option.some.inj hs
    exact ⟨h.tally, h.returned, h.ran, h.single⟩
  | fireDestroy td =>
    obtain ⟨-, hs⟩ := Option.ite_none_right_eq_some.mp hs
    obtain rfl := Option.some.inj hs
    exact h.destroyThread td _
  | run i =>
    obtain ⟨th, hi, hs⟩ := Option.bind_eq_some_iff.mp hs
    obtain ⟨th', hnext, hs⟩ := Option.bind_eq_some_iff.mp hs
    obtain rfl := Option.some.inj hs
    exact h.run hi hnext

/-- A call that has returned because its `td` was found has no OS thread. -/
theorem not_faithful_of_found (htally : Tally m.calls m.items)
    (hk : m.calls[k]? = some ⟨r, .returned none⟩) : ¬ m.Faithful := by
  intro h
  have hnone := htally.startedFor k _ hk
  have hone := h.starts k _ hk rfl
  exact absurd (hone.symm.trans hnone) nofun

/-- A step that is not fresh does not leave the manager faithful. -/
theorem Sound.fresh_of_faithful {a : Action} (h : m.Sound) (hs : m.step a = some m')
    (hP : m'.Faithful) : m.Fresh a := by
  cases a with
  | threadCreate t r =>
    intro ht
    by_contra hfound
    obtain ⟨-, hs⟩ := Option.ite_none_right_eq_some.mp hs
    rw [if_pos ht, createThread_of_found hfound] at hs
    obtain rfl := Option.some.inj hs
    exact not_faithful_of_found (h.tally.append rfl) List.getElem?_concat_length hP
  | fireCreate k =>
    intro c hc
    by_contra hfound
    rw [Manager.step] at hs
    split at hs
    · next r t hk =>
      obtain rfl := Option.some.inj (hk.symm.trans hc)
      obtain ⟨-, hs⟩ := Option.ite_none_right_eq_some.mp hs
      rw [createThread_of_found hfound] at hs
      obtain rfl := Option.some.inj hs
      have hlt := (List.getElem?_eq_some_iff.mp hk).1
      have hrun : (Stage.returned none).running = (Stage.posted t).running := rfl
      exact not_faithful_of_found (h.tally.set hk hrun) (List.getElem?_set_self hlt) hP
    · exact absurd hs nofun
  | addThread k =>
    intro c hc t id ok hst
    obtain ⟨r, st⟩ := c
    obtain rfl : st = .started t id ok := hst
    rw [Manager.step, hc] at hs
    obtain rfl := Option.some.inj hs
    refine ⟨?_, (nodup_addThread_iff h.single ⟨id, k, r⟩).mp hP.single⟩
    by_contra hok
    obtain rfl := Bool.eq_false_iff.mpr hok
    have hlt := (List.getElem?_eq_some_iff.mp hc).1
    exact hP.noEntry k _ (List.getElem?_set_self hlt) rfl _ List.mem_cons_self rfl
  | startThread | threadDestroy | fireDestroy | run => trivial

/-- **The manager along a run.** Whatever is called from which thread, in whatever order the events
are handled and whichever OS threads cannot be started: the manager is faithful in every state
exactly when each step that is taken is fresh. -/
theorem always_faithful_iff (as : List Action) :
    Always step Faithful init as ↔
      Admitted step (fun m a => m.step a ≠ none → m.Fresh a) init as := by
  refine always_iff_admitted_enabled (fun _ h => h.faithful) ?_ ?_ as sound_init
  · intro m a m' h ha hs
    exact h.step ha hs
  · intro m a m' h hs hP
    exact h.fresh_of_faithful hs hP

/-- The main thread creates a thread for `td` 5, destroys it, and creates one for a new structure
at the same address before it has handled the destroy event: the second is never started. -/
theorem reused_td_not_started :
    ∃ m, exec step init
        [.threadCreate 0 ⟨1, 2, 3, 5⟩, .startThread 0 true, .addThread 0, .threadDestroy 5,
          .threadCreate 0 ⟨11, 12, 13, 5⟩, .fireDestroy 5] = some m ∧
      m.calls[1]? = some ⟨⟨11, 12, 13, 5⟩, .returned none⟩ ∧
      m.items.map Item.call = [0] ∧ m.threadmap = [] ∧ ¬ m.Faithful := by
  refine ⟨_, rfl, rfl, rfl, rfl, fun h => ?_⟩
  exact absurd (h.starts 1 _ rfl rfl) (by decide)

end Manager

end VosStack.Ports
