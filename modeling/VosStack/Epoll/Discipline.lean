import VosStack.Epoll.Transitions
import VosStack.Queue.Overtaking
import Mathlib.Logic.Relation
import Mathlib.Data.List.Count
import Mathlib.Data.List.Nodup

/-!
# The discipline of a kqueue's queue

Seen from the queue, a thread plays one of four *roles*: it has nothing to do with the queue,
it scans (its marker is in the queue), it examines a knote that it has taken from the queue,
or it is busy with a knote that it changes, makes or drops. Waking a thread does not change
its role. A `View` is what is left of a `World` when threads are reduced to their roles, and a
`Move` is what a transition does to it.

Two invariants of all moves are here:

* `Flux`: a knote is in flux exactly while one thread examines it or is busy with it;
* `Queued`: the queue has each knote with `KN_QUEUED` that is not examined once, and the marker
  of each scan once; `kq_count` is the number of the knotes that are queued or examined.

For each of them there is one lemma per way in which a move can touch it.
-/

namespace VosStack.Epoll.Concurrent

theorem Flags.has_or (flags a b : Flags) :
    flags.has (a ||| b) = (flags.has a || flags.has b) := by
  rw [Bool.eq_iff_iff]
  simp only [Flags.has, BitVec.and_or_distrib_left, Bool.or_eq_true_iff, bne_iff_ne, ne_eq,
    BitVec.ofNat_eq_ofNat, BitVec.or_eq_zero_iff, not_and_or]

/-- What a thread has to do with the queue. -/
inductive Role
  | out
  | scanning
  /-- examines a knote, in a scan -/
  | exam (k : Key)
  /-- drops a knote in a scan, or makes, changes or drops one elsewhere -/
  | busy (k : Key) (scan : Bool)
  deriving DecidableEq, Repr

/-- The knote that the thread holds in flux. -/
def Role.held : Role → Option Key
  | .out => none
  | .scanning => none
  | .exam k => some k
  | .busy k _ => some k

/-- The thread's marker is in the queue. -/
def Role.scans : Role → Bool
  | .out => false
  | .scanning => true
  | .exam _ => true
  | .busy _ scan => scan

/-- The role after a drop. -/
def Role.dropped (scan : Bool) : Role := if scan then .scanning else .out

@[simp, grind =] theorem Role.held_out : Role.out.held = none := rfl
@[simp, grind =] theorem Role.held_scanning : Role.scanning.held = none := rfl
@[simp, grind =] theorem Role.held_exam (k : Key) : (Role.exam k).held = some k := rfl
@[simp, grind =] theorem Role.held_busy (k : Key) (s : Bool) : (Role.busy k s).held = some k := rfl
@[simp, grind =] theorem Role.scans_out : Role.out.scans = false := rfl
@[simp, grind =] theorem Role.scans_scanning : Role.scanning.scans = true := rfl
@[simp, grind =] theorem Role.scans_exam (k : Key) : (Role.exam k).scans = true := rfl
@[simp, grind =] theorem Role.scans_busy (k : Key) (s : Bool) : (Role.busy k s).scans = s := rfl

@[simp, grind =]
theorem Role.held_dropped (s : Bool) : (Role.dropped s).held = none := by
  cases s <;> rfl

@[simp, grind =]
theorem Role.scans_dropped (s : Bool) : (Role.dropped s).scans = s := by
  cases s <;> rfl

theorem Role.dropped_ne_exam (s : Bool) (k : Key) : Role.dropped s ≠ .exam k := by
  cases s <;> nofun

/-- A kqueue with its threads reduced to their roles. -/
structure View (Tid : Type*) where
  knotes : Key → Option LiveKnote
  queue : List (Entry Tid)
  count : ℕ
  role : Tid → Role
  exams : List Key
  ready : Key → Bool
  fresh : Key → Bool
  since : Entry Tid → List (Entry Tid)

namespace View

variable {Tid : Type*} [DecidableEq Tid]

/-- A report of the knote `k`. -/
def served (v : View Tid) (k : Key) : View Tid :=
  { v with
    since := fun e => v.since e ++ [.knote k]
    fresh := Function.update v.fresh k false }

/-- Write a knote, and enqueue it if it is active and neither queued nor disabled. -/
def put (v : View Tid) (k : Key) (kn : LiveKnote) : View Tid :=
  if kn.active && !kn.disabled && !kn.queued then
    { v with
      knotes := Function.update v.knotes k (some { kn with queued := true })
      queue := v.queue ++ [.knote k]
      count := v.count + 1
      since := Function.update v.since (.knote k) [] }
  else { v with knotes := Function.update v.knotes k (some kn) }

/-- What a transition does to the view. -/
inductive Move (v : View Tid) : View Tid → Prop
  | enter (t : Tid) (ht : v.role t = .out) :
      Move v { v with
        queue := v.queue ++ [.marker t]
        since := Function.update v.since (.marker t) []
        role := Function.update v.role t .scanning }
  | leave (t : Tid) (ht : v.role t = .scanning) :
      Move v { v with
        queue := v.queue.erase (.marker t)
        role := Function.update v.role t .out }
  | takeDisabled (k : Key) (kn : LiveKnote) (rest : List (Entry Tid))
      (hq : v.queue = .knote k :: rest) (hkn : v.knotes k = some kn) (hd : kn.disabled = true) :
      Move v { v with
        queue := rest
        count := v.count - 1
        knotes := Function.update v.knotes k (some { kn with queued := false }) }
  | takeDrop (t : Tid) (k : Key) (kn : LiveKnote) (rest : List (Entry Tid))
      (ht : v.role t = .scanning) (hq : v.queue = .knote k :: rest)
      (hkn : v.knotes k = some kn) (hi : kn.influx = false) :
      Move v { v with
        queue := rest
        count := v.count - 1
        knotes := Function.update v.knotes k (some { kn with queued := false, influx := true })
        role := Function.update v.role t (.busy k true) }
  | takeOneshot (t : Tid) (k : Key) (kn : LiveKnote) (rest : List (Entry Tid))
      (ht : v.role t = .scanning) (hq : v.queue = .knote k :: rest)
      (hkn : v.knotes k = some kn) (hi : kn.influx = false) :
      Move v ({ v with
        queue := rest
        count := v.count - 1
        knotes := Function.update v.knotes k (some { kn with queued := false, influx := true })
        role := Function.update v.role t (.busy k true) }.served k)
  | takeExam (t : Tid) (k : Key) (kn kn' : LiveKnote) (rest : List (Entry Tid))
      (ht : v.role t = .scanning) (hq : v.queue = .knote k :: rest)
      (hkn : v.knotes k = some kn) (hi : kn.influx = false)
      (hkn' : kn' = { kn with scan := true, influx := true }) :
      Move v { v with
        queue := rest
        exams := k :: v.exams
        knotes := Function.update v.knotes k (some kn')
        role := Function.update v.role t (.exam k) }
  | examIdle (t : Tid) (k : Key) (kn : LiveKnote) (ht : v.role t = .exam k)
      (hkn : v.knotes k = some kn) (hr : v.ready k = false) :
      Move v { v with
        count := v.count - 1
        exams := v.exams.erase k
        knotes := Function.update v.knotes k (some { kn with
          active := false, queued := false, scan := false, influx := false })
        role := Function.update v.role t .scanning }
  | examClear (t : Tid) (k : Key) (kn kn' : LiveKnote) (ht : v.role t = .exam k)
      (hkn : v.knotes k = some kn) (hkn' : kn' = { kn with
        active := false, queued := false, scan := false, influx := false
        disabled := kn.disabled || kn.flags.has evDispatch })
      (hf : kn.flags.has (evClear ||| evDispatch) = true) :
      Move v ({ v with
        count := v.count - 1
        exams := v.exams.erase k
        knotes := Function.update v.knotes k (some kn')
        role := Function.update v.role t .scanning }.served k)
  | examAgain (t : Tid) (k : Key) (kn kn' : LiveKnote) (ht : v.role t = .exam k)
      (hkn : v.knotes k = some kn) (hkn' : kn' = { kn with scan := false, influx := false }) :
      Move v { v with
        exams := v.exams.erase k
        knotes := Function.update v.knotes k (some kn')
        role := Function.update v.role t .scanning
        queue := v.queue ++ [.knote k]
        since := Function.update (fun e => v.since e ++ [.knote k]) (.knote k) []
        fresh := Function.update v.fresh k false }
  | drop (t : Tid) (k : Key) (s : Bool) (kn : LiveKnote) (ht : v.role t = .busy k s)
      (hkn : v.knotes k = some kn) :
      Move v { v with
        queue := if kn.queued then v.queue.erase (.knote k) else v.queue
        count := if kn.queued then v.count - 1 else v.count
        knotes := Function.update v.knotes k none
        role := Function.update v.role t (.dropped s) }
  | attach (t : Tid) (k : Key) (kn : LiveKnote) (ht : v.role t = .out)
      (hkn : v.knotes k = none) (hi : kn.influx = true) (hq : kn.queued = false) :
      Move v { v with
        knotes := Function.update v.knotes k (some kn)
        role := Function.update v.role t (.busy k false) }
  | grab (t : Tid) (k : Key) (kn kn' : LiveKnote) (ht : v.role t = .out)
      (hkn : v.knotes k = some kn) (hi : kn.influx = false) (hi' : kn'.influx = true)
      (hq : kn'.queued = kn.queued) (ha : kn.active = true → kn'.active = true) :
      Move v { v with
        knotes := Function.update v.knotes k (some kn')
        role := Function.update v.role t (.busy k false) }
  | settle (t : Tid) (k : Key) (kn kn' : LiveKnote) (fresh : Bool) (ht : v.role t = .busy k false)
      (hkn : v.knotes k = some kn) (hi : kn'.influx = false) (hq : kn'.queued = kn.queued)
      (ha : kn'.active = (kn.active || (!kn'.disabled && v.ready k))) :
      Move v ({ v with
        role := Function.update v.role t .out
        fresh := Function.update v.fresh k fresh }.put k kn')
  | force (k : Key) (kn kn' : LiveKnote) (hkn : v.knotes k = some kn)
      (hi : kn'.influx = kn.influx) (hq : kn'.queued = kn.queued) (ha : kn'.active = true) :
      Move v (v.put k kn')
  | setReady (k : Key) (ready fresh : Bool)
      (h : ready = true → ∀ kn, v.knotes k = some kn → kn.influx = true) :
      Move v { v with
        ready := Function.update v.ready k ready
        fresh := Function.update v.fresh k fresh }
  | activate (k : Key) (kn : LiveKnote) (fresh : Bool) (hkn : v.knotes k = some kn) :
      Move v ({ v with
        ready := Function.update v.ready k true
        fresh := Function.update v.fresh k fresh }.put k { kn with active := true })

/-! ### Who holds a knote in flux -/

/-- A knote is in flux exactly while one thread holds it. -/
structure Flux (knotes : Key → Option LiveKnote) (role : Tid → Role) : Prop where
  held : ∀ t k, (role t).held = some k → ∃ kn, knotes k = some kn ∧ kn.influx = true
  owner : ∀ k kn, knotes k = some kn → kn.influx = true → ∃ t, (role t).held = some k
  sole : ∀ t u k, (role t).held = some k → (role u).held = some k → t = u

namespace Flux

variable {knotes knotes' : Key → Option LiveKnote} {role : Tid → Role} {t : Tid} {k : Key}
  {kn kn' : LiveKnote} {r : Role} {o : Option LiveKnote}

omit [DecidableEq Tid] in
theorem knote_eq (h : Flux knotes role) (ht : (role t).held = some k)
    (hkn : knotes k = some kn) : kn.influx = true := by
  obtain ⟨kn', hkn', hi⟩ := h.held t k ht
  obtain rfl : kn = kn' := Option.some.inj (hkn.symm.trans hkn')
  exact hi

omit [DecidableEq Tid] in
theorem exam_sole (h : Flux knotes role) (ht : role t = .exam k) (u : Tid)
    (hu : role u = .exam k) : u = t :=
  h.sole u t k (by simp [hu]) (by simp [ht])

/-- A thread that holds nothing before and after. -/
theorem move (h : Flux knotes role) (ht : (role t).held = none) (hr : r.held = none) :
    Flux knotes (Function.update role t r) := by
  have heq (u : Tid) : (Function.update role t r u).held = (role u).held := by
    by_cases hu : u = t
    · rw [hu, Function.update_self, ht, hr]
    · rw [Function.update_of_ne hu]
  constructor
  · intro u j hj
    exact h.held u j (heq u ▸ hj)
  · intro j kn hkn hi
    obtain ⟨u, hu⟩ := h.owner j kn hkn hi
    exact ⟨u, (heq u).trans hu⟩
  · intro u u' j hu hu'
    exact h.sole u u' j (heq u ▸ hu) (heq u' ▸ hu')

omit [DecidableEq Tid] in
/-- A knote is written and stays in flux, or out of it. -/
theorem write (h : Flux knotes role) (hkn : knotes k = some kn) (hi : kn'.influx = kn.influx) :
    Flux (Function.update knotes k (some kn')) role where
  held := fun t j hj => by
    obtain ⟨kn₁, hkn₁, hi₁⟩ := h.held t j hj
    by_cases hjk : j = k
    · subst hjk
      obtain rfl : kn = kn₁ := Option.some.inj (hkn.symm.trans hkn₁)
      exact ⟨kn', Function.update_self .., hi.trans hi₁⟩
    · exact ⟨kn₁, by rwa [Function.update_of_ne hjk], hi₁⟩
  owner := fun j kn₁ hkn₁ hi₁ => by
    by_cases hjk : j = k
    · subst hjk
      rw [Function.update_self, Option.some.injEq] at hkn₁
      subst hkn₁
      exact h.owner j kn hkn (hi ▸ hi₁)
    · rw [Function.update_of_ne hjk] at hkn₁
      exact h.owner j kn₁ hkn₁ hi₁
  sole := h.sole

/-- A thread that holds nothing takes a knote that is not in flux. -/
theorem take (h : Flux knotes role) (ht : (role t).held = none) (hr : r.held = some k)
    (hk : ∀ kn, knotes k = some kn → kn.influx = false) (hi : kn'.influx = true) :
    Flux (Function.update knotes k (some kn')) (Function.update role t r) := by
  have hfree (u : Tid) : (role u).held ≠ some k := fun hu => by
    obtain ⟨kn, hkn, hi⟩ := h.held u k hu
    simp [hk kn hkn] at hi
  have hcases (u : Tid) (j : Key) (hj : (Function.update role t r u).held = some j) :
      u = t ∧ j = k ∨ u ≠ t ∧ j ≠ k ∧ (role u).held = some j := by
    by_cases hu : u = t
    · subst hu
      rw [Function.update_self, hr] at hj
      exact .inl ⟨rfl, (Option.some.inj hj).symm⟩
    · rw [Function.update_of_ne hu] at hj
      exact .inr ⟨hu, fun hjk => hfree u (hjk ▸ hj), hj⟩
  constructor
  · intro u j hj
    rcases hcases u j hj with ⟨-, rfl⟩ | ⟨-, hjk, hj⟩
    · exact ⟨kn', Function.update_self .., hi⟩
    · rw [Function.update_of_ne hjk]
      exact h.held u j hj
  · intro j kn hkn hi
    by_cases hjk : j = k
    · exact ⟨t, by rw [Function.update_self, hr, hjk]⟩
    · rw [Function.update_of_ne hjk] at hkn
      obtain ⟨u, hu⟩ := h.owner j kn hkn hi
      have hut : u ≠ t := by
        rintro rfl
        simp [ht] at hu
      exact ⟨u, by rwa [Function.update_of_ne hut]⟩
  · intro u u' j hu hu'
    rcases hcases u j hu with ⟨hut, hjk⟩ | ⟨-, hjk, hj⟩ <;>
      rcases hcases u' j hu' with ⟨hut', hjk'⟩ | ⟨-, hjk', hj'⟩
    · exact hut.trans hut'.symm
    · exact absurd hjk hjk'
    · exact absurd hjk' hjk
    · exact h.sole u u' j hj hj'

/-- A thread lets go of the knote that it holds. -/
theorem release (h : Flux knotes role) (ht : (role t).held = some k) (hr : r.held = none)
    (ho : ∀ kn, o = some kn → kn.influx = false) :
    Flux (Function.update knotes k o) (Function.update role t r) := by
  have hcases (u : Tid) (j : Key) (hj : (Function.update role t r u).held = some j) :
      u ≠ t ∧ j ≠ k ∧ (role u).held = some j := by
    by_cases hu : u = t
    · simp [hu, hr] at hj
    · rw [Function.update_of_ne hu] at hj
      refine ⟨hu, ?_, hj⟩
      rintro rfl
      exact hu (h.sole u t j hj ht)
  constructor
  · intro u j hj
    obtain ⟨-, hjk, hj⟩ := hcases u j hj
    rw [Function.update_of_ne hjk]
    exact h.held u j hj
  · intro j kn hkn hi
    by_cases hjk : j = k
    · subst hjk
      rw [Function.update_self] at hkn
      simp [ho kn hkn] at hi
    · rw [Function.update_of_ne hjk] at hkn
      obtain ⟨u, hu⟩ := h.owner j kn hkn hi
      have hut : u ≠ t := by
        rintro rfl
        exact hjk (Option.some.inj (hu.symm.trans ht))
      exact ⟨u, by rwa [Function.update_of_ne hut]⟩
  · intro u u' j hu hu'
    exact h.sole u u' j (hcases u j hu).2.2 (hcases u' j hu').2.2

end Flux

variable {v v' : View Tid}

theorem put_role (v : View Tid) (k : Key) (kn : LiveKnote) : (v.put k kn).role = v.role := by
  unfold put
  split <;> rfl

theorem put_knotes (v : View Tid) (k : Key) (kn : LiveKnote) :
    ∃ kn', (v.put k kn).knotes = Function.update v.knotes k (some kn') ∧
      kn'.toKnote = kn.toKnote ∧ kn'.active = kn.active ∧ kn'.scan = kn.scan ∧
      kn'.influx = kn.influx ∧
      kn'.queued = (kn.queued || (kn.active && !kn.disabled)) := by
  unfold put
  split
  · next h => exact ⟨_, rfl, rfl, rfl, rfl, rfl, by simp_all⟩
  · next h =>
    refine ⟨kn, rfl, rfl, rfl, rfl, rfl, ?_⟩
    revert h
    cases kn.active <;> cases kn.disabled <;> cases kn.queued <;> simp

theorem flux_move (hm : Move v v') (h : Flux v.knotes v.role) : Flux v'.knotes v'.role := by
  cases hm with
  | enter t ht => exact h.move (by simp [ht]) rfl
  | leave t ht => exact h.move (by simp [ht]) rfl
  | takeDisabled k kn rest hq hkn hd => exact h.write hkn rfl
  | takeDrop t k kn rest ht hq hkn hi =>
    exact h.take (by simp [ht]) rfl (by simp [hkn, hi]) rfl
  | takeOneshot t k kn rest ht hq hkn hi =>
    exact h.take (by simp [ht]) rfl (by simp [hkn, hi]) rfl
  | takeExam t k kn kn' rest ht hq hkn hi hkn' =>
    exact h.take (by simp [ht]) rfl (by simp [hkn, hi]) (by rw [hkn'])
  | examIdle t k kn ht hkn hr => exact h.release (by simp [ht]) rfl (by simp)
  | examClear t k kn kn' ht hkn hkn' hf =>
    exact h.release (by simp [ht]) rfl (by simp [hkn'])
  | examAgain t k kn kn' ht hkn hkn' => exact h.release (by simp [ht]) rfl (by simp [hkn'])
  | drop t k s kn ht hkn => exact h.release (by simp [ht]) (by simp) (by simp)
  | attach t k kn ht hkn hi hq => exact h.take (by simp [ht]) rfl (by simp [hkn]) hi
  | grab t k kn kn' ht hkn hi hi' hq ha =>
    exact h.take (by simp [ht]) rfl (by simp [hkn, hi]) hi'
  | settle t k kn kn' fresh ht hkn hi hq ha =>
    obtain ⟨kn₁, hkn₁, -, -, -, hi₁, -⟩ := put_knotes { v with
      role := Function.update v.role t .out, fresh := Function.update v.fresh k fresh } k kn'
    rw [hkn₁, put_role]
    exact h.release (by simp [ht]) rfl (by simp [hi₁, hi])
  | force k kn kn' hkn hi hq ha =>
    obtain ⟨kn₁, hkn₁, -, -, -, hi₁, -⟩ := put_knotes v k kn'
    rw [hkn₁, put_role]
    exact h.write hkn (hi₁.trans hi)
  | setReady k ready fresh hready => exact h
  | activate k kn fresh hkn =>
    obtain ⟨kn₁, hkn₁, -, -, -, hi₁, -⟩ := put_knotes { v with
      ready := Function.update v.ready k true, fresh := Function.update v.fresh k fresh } k
        { kn with active := true }
    rw [hkn₁, put_role]
    exact h.write hkn hi₁

/-! ### The queue and its count -/

/-- What is in the queue, and what `kq_count` counts. -/
structure Queued (knotes : Key → Option LiveKnote) (queue : List (Entry Tid)) (count : ℕ)
    (role : Tid → Role) (exams : List Key) : Prop where
  knote : ∀ k, .knote k ∈ queue ↔ k ∉ exams ∧ ∃ kn, knotes k = some kn ∧ kn.queued = true
  marker : ∀ t, .marker t ∈ queue ↔ (role t).scans = true
  exam : ∀ k, k ∈ exams ↔ ∃ t, role t = .exam k
  queued : ∀ k ∈ exams, ∃ kn, knotes k = some kn ∧ kn.queued = true
  count : count = queue.countP Entry.isKnote + exams.length
  nodup : queue.Nodup
  nodup_exams : exams.Nodup

namespace Queued

variable {knotes : Key → Option LiveKnote} {queue : List (Entry Tid)} {count : ℕ}
  {role : Tid → Role} {exams : List Key} {t : Tid} {k : Key} {kn kn' : LiveKnote} {r : Role}
  {o : Option LiveKnote}

/-- A change of role that concerns neither the marker nor an examined knote. -/
theorem setRole (h : Queued knotes queue count role exams) (hs : r.scans = (role t).scans)
    (hr : ∀ k, r ≠ .exam k) (ht : ∀ k, role t ≠ .exam k) :
    Queued knotes queue count (Function.update role t r) exams where
  knote := h.knote
  marker := fun u => by
    rw [h.marker u]
    by_cases hu : u = t
    · rw [hu, Function.update_self, hs]
    · rw [Function.update_of_ne hu]
  exam := fun k => by
    rw [h.exam k, Function.exists_update_iff role (p := fun _ x => x = .exam k)]
    grind
  queued := h.queued
  count := h.count
  nodup := h.nodup
  nodup_exams := h.nodup_exams

omit [DecidableEq Tid] in
/-- A knote is written, and stays queued or not. -/
theorem write (h : Queued knotes queue count role exams) (hkn : knotes k = some kn)
    (hq : kn'.queued = kn.queued) :
    Queued (Function.update knotes k (some kn')) queue count role exams where
  knote := fun j => by grind [h.knote j]
  marker := h.marker
  exam := h.exam
  queued := fun j hj => by grind [h.queued j hj]
  count := h.count
  nodup := h.nodup
  nodup_exams := h.nodup_exams

omit [DecidableEq Tid] in
/-- A knote that is made is not queued. -/
theorem add (h : Queued knotes queue count role exams) (hkn : knotes k = none)
    (hq : kn'.queued = false) :
    Queued (Function.update knotes k (some kn')) queue count role exams where
  knote := fun j => by grind [h.knote j]
  marker := h.marker
  exam := h.exam
  queued := fun j hj => by grind [h.queued j hj]
  count := h.count
  nodup := h.nodup
  nodup_exams := h.nodup_exams

omit [DecidableEq Tid] in
/-- A knote that is not queued is removed. -/
theorem remove (h : Queued knotes queue count role exams) (hkn : knotes k = some kn)
    (hq : kn.queued = false) : Queued (Function.update knotes k none) queue count role exams where
  knote := fun j => by grind [h.knote j]
  marker := h.marker
  exam := h.exam
  queued := fun j hj => by grind [h.queued j hj]
  count := h.count
  nodup := h.nodup
  nodup_exams := h.nodup_exams

omit [DecidableEq Tid] in
theorem not_mem_exams (h : Queued knotes queue count role exams) (hkn : knotes k = some kn)
    (hq : kn.queued = false) : k ∉ exams := fun hk => by
  obtain ⟨kn₁, hkn₁, hq₁⟩ := h.queued k hk
  simp_all

/-- A knote that is not queued enters the queue. -/
theorem enqueue (h : Queued knotes queue count role exams) (hkn : knotes k = some kn)
    (hq : kn.queued = false) (hq' : kn'.queued = true) :
    Queued (Function.update knotes k (some kn')) (queue ++ [.knote k]) (count + 1) role
      exams where
  knote := fun j => by grind [h.knote j, h.not_mem_exams hkn hq]
  marker := fun t => by simp [h.marker t]
  exam := h.exam
  queued := fun j hj => by grind [h.queued j hj]
  count := by
    simp only [List.countP_append, List.countP_singleton, Entry.isKnote, h.count]
    grind
  nodup := by grind [h.knote k, h.nodup]
  nodup_exams := h.nodup_exams

/-- A knote leaves the queue. -/
theorem dequeue (h : Queued knotes queue count role exams) (hk : .knote k ∈ queue)
    (ho : ∀ kn, o = some kn → kn.queued = false) :
    Queued (Function.update knotes k o) (queue.erase (.knote k)) (count - 1) role exams where
  knote := fun j => by
    have := h.nodup
    grind [h.knote j]
  marker := fun t => by
    rw [← h.marker t]
    grind
  exam := h.exam
  queued := fun j hj => by grind [h.queued j hj, h.knote k]
  count := by
    have hpos : 0 < queue.countP Entry.isKnote := List.countP_pos_iff.mpr ⟨_, hk, rfl⟩
    rw [h.count, List.countP_erase, if_pos ⟨hk, rfl⟩]
    omega
  nodup := h.nodup.erase _
  nodup_exams := h.nodup_exams

/-- A marker enters. -/
theorem enter (h : Queued knotes queue count role exams) (hs : (role t).scans = false)
    (hr : r.scans = true) (hx : ∀ k, r ≠ .exam k) (ht : ∀ k, role t ≠ .exam k) :
    Queued knotes (queue ++ [.marker t]) count (Function.update role t r) exams where
  knote := fun j => by simp [h.knote j]
  marker := fun u => by grind [h.marker u]
  exam := fun k => by
    rw [h.exam k, Function.exists_update_iff role (p := fun _ x => x = .exam k)]
    grind
  queued := h.queued
  count := by simp [Entry.isKnote, h.count]
  nodup := by grind [h.marker t, h.nodup]
  nodup_exams := h.nodup_exams

/-- A marker leaves. -/
theorem leave (h : Queued knotes queue count role exams) (hr : r.scans = false)
    (hx : ∀ k, r ≠ .exam k) (ht : ∀ k, role t ≠ .exam k) :
    Queued knotes (queue.erase (.marker t)) count (Function.update role t r) exams where
  knote := fun j => by grind [h.knote j]
  marker := fun u => by
    have := h.nodup
    grind [h.marker u]
  exam := fun k => by
    rw [h.exam k, Function.exists_update_iff role (p := fun _ x => x = .exam k)]
    grind
  queued := h.queued
  count := by
    rw [h.count, List.countP_erase, if_neg (by simp [Entry.isKnote])]
    rfl
  nodup := h.nodup.erase _
  nodup_exams := h.nodup_exams

/-- The knote at the head is taken to be examined. -/
theorem take {rest : List (Entry Tid)}
    (h : Queued knotes (.knote k :: rest) count role exams) (ht : role t = .scanning) :
    Queued knotes rest count (Function.update role t (.exam k)) (k :: exams) where
  knote := fun j => by
    have := h.nodup
    grind [h.knote j]
  marker := fun u => by grind [h.marker u]
  exam := fun j => by
    rw [List.mem_cons, h.exam j,
      Function.exists_update_iff role (p := fun _ x => x = .exam j)]
    grind
  queued := fun j hj => by
    rcases List.mem_cons.mp hj with rfl | hj
    · exact ((h.knote j).mp List.mem_cons_self).2
    · exact h.queued j hj
  count := by
    have := h.count
    simp only [List.countP_cons, Entry.isKnote, List.length_cons] at this ⊢
    grind
  nodup := h.nodup.of_cons
  nodup_exams := by grind [h.knote k, h.nodup_exams]

/-- The examined knote leaves the queue for good. -/
theorem examOff (h : Queued knotes queue count role exams)
    (hsole : ∀ u, role u = .exam k → u = t) (ht : role t = .exam k)
    (hq : kn'.queued = false) :
    Queued (Function.update knotes k (some kn')) queue (count - 1)
      (Function.update role t .scanning) (exams.erase k) where
  knote := fun j => by
    have := h.nodup_exams
    grind [h.knote j, (h.exam k).mpr ⟨t, ht⟩]
  marker := fun u => by grind [h.marker u]
  exam := fun j => by
    rw [h.nodup_exams.mem_erase_iff, h.exam j,
      Function.exists_update_iff role (p := fun _ x => x = .exam j)]
    grind
  queued := fun j hj => by
    obtain ⟨hjk, hj⟩ := h.nodup_exams.mem_erase_iff.mp hj
    rw [Function.update_of_ne hjk]
    exact h.queued j hj
  count := by
    have hk : k ∈ exams := (h.exam k).mpr ⟨t, ht⟩
    rw [h.count, List.length_erase_of_mem hk]
    have := List.length_pos_of_mem hk
    omega
  nodup := h.nodup
  nodup_exams := h.nodup_exams.erase k

/-- The examined knote goes back to the tail. -/
theorem examAgain (h : Queued knotes queue count role exams)
    (hsole : ∀ u, role u = .exam k → u = t) (ht : role t = .exam k)
    (hkn : knotes k = some kn) (hq : kn'.queued = kn.queued) :
    Queued (Function.update knotes k (some kn')) (queue ++ [.knote k]) count
      (Function.update role t .scanning) (exams.erase k) where
  knote := fun j => by
    have := h.nodup_exams
    grind [h.knote j, h.queued k ((h.exam k).mpr ⟨t, ht⟩)]
  marker := fun u => by grind [h.marker u]
  exam := fun j => by
    rw [h.nodup_exams.mem_erase_iff, h.exam j,
      Function.exists_update_iff role (p := fun _ x => x = .exam j)]
    grind
  queued := fun j hj => by
    obtain ⟨hjk, hj⟩ := h.nodup_exams.mem_erase_iff.mp hj
    rw [Function.update_of_ne hjk]
    exact h.queued j hj
  count := by
    have hk : k ∈ exams := (h.exam k).mpr ⟨t, ht⟩
    have := List.length_pos_of_mem hk
    simp only [List.countP_append, List.countP_singleton, Entry.isKnote, h.count,
      List.length_erase_of_mem hk]
    grind
  nodup := by grind [h.knote k, h.nodup, (h.exam k).mpr ⟨t, ht⟩]
  nodup_exams := h.nodup_exams.erase k

end Queued

theorem queued_put {k : Key} {kn kn' : LiveKnote} (v : View Tid)
    (h : Queued v.knotes v.queue v.count v.role v.exams) (hkn : v.knotes k = some kn)
    (hq : kn'.queued = kn.queued) :
    Queued (v.put k kn').knotes (v.put k kn').queue (v.put k kn').count (v.put k kn').role
      (v.put k kn').exams := by
  unfold put
  split
  · next hput => exact h.enqueue hkn (by simp_all) rfl
  · exact h.write hkn hq

theorem queued_move (hm : Move v v') (hf : Flux v.knotes v.role)
    (h : Queued v.knotes v.queue v.count v.role v.exams) :
    Queued v'.knotes v'.queue v'.count v'.role v'.exams := by
  cases hm with
  | enter t ht => exact h.enter (by simp [ht]) rfl nofun (by simp [ht])
  | leave t ht => exact h.leave rfl nofun (by simp [ht])
  | takeDisabled k kn rest hq hkn hd =>
    have := h.dequeue (k := k) (o := some { kn with queued := false }) (by simp [hq]) (by simp)
    simpa [hq] using this
  | takeDrop t k kn rest ht hq hkn hi =>
    have := h.dequeue (k := k) (o := some { kn with queued := false, influx := true })
      (by simp [hq]) (by simp)
    rw [hq, List.erase_cons_head] at this
    exact this.setRole (by simp [ht]) nofun (by simp [ht])
  | takeOneshot t k kn rest ht hq hkn hi =>
    have := h.dequeue (k := k) (o := some { kn with queued := false, influx := true })
      (by simp [hq]) (by simp)
    rw [hq, List.erase_cons_head] at this
    exact this.setRole (by simp [ht]) nofun (by simp [ht])
  | takeExam t k kn kn' rest ht hq hkn hi hkn' =>
    rw [hq] at h
    exact (h.take ht).write hkn (by rw [hkn'])
  | examIdle t k kn ht hkn hr => exact h.examOff (hf.exam_sole ht) ht rfl
  | examClear t k kn kn' ht hkn hkn' hf' => exact h.examOff (hf.exam_sole ht) ht (by rw [hkn'])
  | examAgain t k kn kn' ht hkn hkn' =>
    exact h.examAgain (hf.exam_sole ht) ht hkn (by rw [hkn'])
  | drop t k s kn ht hkn =>
    have hk : k ∉ v.exams := fun hk => by
      obtain ⟨u, hu⟩ := (h.exam k).mp hk
      obtain rfl := hf.sole u t k (by simp [hu]) (by simp [ht])
      simp [hu] at ht
    have hrole {knotes queue count} (h : Queued knotes queue count v.role v.exams) :
        Queued knotes queue count (Function.update v.role t (.dropped s)) v.exams :=
      h.setRole (by simp [ht]) (Role.dropped_ne_exam s) (by simp [ht])
    by_cases hq : kn.queued = true
    · have hmem : .knote k ∈ v.queue := (h.knote k).mpr ⟨hk, kn, hkn, hq⟩
      simpa only [hq, if_true] using hrole (h.dequeue hmem (o := none) (by simp))
    · simpa [hq] using hrole (h.remove hkn (by simpa using hq))
  | attach t k kn ht hkn hi hq =>
    exact (h.add hkn hq).setRole (by simp [ht]) nofun (by simp [ht])
  | grab t k kn kn' ht hkn hi hi' hq ha =>
    exact (h.write hkn hq).setRole (by simp [ht]) nofun (by simp [ht])
  | settle t k kn kn' fresh ht hkn hi hq ha =>
    exact queued_put _ (h.setRole (by simp [ht]) nofun (by simp [ht])) hkn hq
  | force k kn kn' hkn hi hq ha => exact queued_put v h hkn hq
  | setReady k ready fresh hready => exact h
  | activate k kn fresh hkn => exact queued_put _ h hkn rfl

end View

end VosStack.Epoll.Concurrent
