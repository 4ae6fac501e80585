import VosStack.Epoll.Shim
import VosStack.Transition.Run

/-!
# Two knotes against one epoll entry

The interest table of epoll has one entry for each descriptor: the trigger mode, the one-shot
mode, the directions and the user data, and whether the entry is armed. `vos_epoll` keeps two
independent knotes in its place. `Simulates` says when the knotes stand for the table.

* An entry that is armed is two knotes with the entry's mode and data. The direction that is
  not asked for is disabled.
* An entry whose one-shot report is spent has no enabled knote.
* A descriptor without an entry has no knote.

The relation is kept by `ADD` and, under the conditions of `Plain`, by the other operations
and by reports. It is lost without them, because the flags of a knote never change and a
one-shot report drops one knote of the two.

The ghost state is the table, moved by epoll's own rules, and the log of what the caller saw.
-/

namespace VosStack.Epoll

open Transition

/-! ### The interest table -/

/-- An entry of the interest table. -/
structure Registration where
  /-- edge-triggered, otherwise level-triggered -/
  edge : Bool
  oneshot : Bool
  /-- asks for input -/
  input : Bool
  /-- asks for output -/
  output : Bool
  data : BitVec 64
  /-- `false` once a one-shot entry has reported -/
  armed : Bool
  deriving DecidableEq, Repr

/-- The entry asks for a direction. -/
def Registration.wants (r : Registration) : Filter → Bool
  | .read => r.input
  | .write => r.output

/-- The entry that an `ADD` or a `MOD` asks for. -/
def Registration.ofEvent (event : EpollEvent) : Registration where
  edge := event.has soEpollEt
  oneshot := event.has soEpollOneshot
  input := event.has soEpollIn
  output := event.has soEpollOut
  data := event.data
  armed := true

/-- The entry after one report. -/
def Registration.reported (r : Registration) : Registration :=
  if r.oneshot then { r with armed := false } else r

/-- The interest table. -/
abbrev Table := ℕ → Option Registration

/-- An operation of epoll where it succeeds: `ADD` of a descriptor that has no entry, `MOD`
and `DEL` of one that has. -/
def Table.ctl (table : Table) (op : CtlOp) (fd : ℕ) (event : EpollEvent) : Option Table :=
  match op, table fd with
  | .add, none => some (Function.update table fd (some (.ofEvent event)))
  | .mod, some _ => some (Function.update table fd (some (.ofEvent event)))
  | .del, some _ => some (Function.update table fd none)
  | _, _ => none

/-! ### The system -/

/-- What the caller has seen. -/
inductive Observation
  /-- `vos_epoll_ctl` has returned `rv` -/
  | ctl (op : CtlOp) (fd : ℕ) (rv : ℤ)
  /-- `vos_epoll_wait` has filled `event` from a report of the filter `f`, when the table's
  entry was `r` -/
  | report (fd : ℕ) (f : Filter) (r : Option Registration) (event : EpollEvent)
  deriving DecidableEq, Repr

/-- A kqueue used through `vos_epoll`. -/
structure World where
  kq : Kqueue
  /-- ghost: the interest table -/
  table : Table
  /-- ghost: what the caller has seen -/
  log : List Observation

/-- A fresh kqueue. -/
def init : World := ⟨fun _ _ => none, fun _ => none, []⟩

/-- A call of `vos_epoll_ctl`, or one entry that `vos_epoll_wait` reports: which knote is
ready, with what flags and data, and what the caller's array held there. -/
inductive Action
  | ctl (op : CtlOp) (fd : ℕ) (event : EpollEvent)
  | report (fd : ℕ) (f : Filter) (status : Flags) (fflags : BitVec 32) (data : BitVec 64)
      (old : EpollEvent)

def step (w : World) : Action → Option World
  | .ctl op fd event =>
    (w.table.ctl op fd event).map fun table =>
      let (kq, rv) := vosEpollCtl w.kq op fd (some event)
      ⟨kq, table, w.log ++ [.ctl op fd rv]⟩
  | .report fd f status fflags data old =>
    (scan w.kq fd f status fflags data).map fun (kq, kev) =>
      ⟨kq, Function.update w.table fd ((w.table fd).map .reported),
        w.log ++ [.report fd f (w.table fd) (vosEventToEpoll old kev)]⟩

/-! ### The relation -/

/-- The flags of a knote that are not its enabled state: those of the entry's two modes. -/
def Registration.modeFlags (r : Registration) : Flags :=
  (if r.edge then evClear else 0) ||| (if r.oneshot then evOneshot else 0)

/-- The knote that stands for one direction of an armed entry. -/
def Registration.knote (r : Registration) (f : Filter) : Knote where
  flags := r.modeFlags
  disabled := !r.wants f
  udata := r.data

/-- The knotes of one descriptor stand for its entry. -/
def Stands (row : Filter → Option Knote) : Option Registration → Prop
  | none => ∀ f, row f = none
  | some r =>
    if r.armed then ∀ f, row f = some (r.knote f)
    else ∀ f kn, row f = some kn → kn.disabled = true

/-- The knotes of a kqueue stand for an interest table. -/
def Simulates (kq : Kqueue) (table : Table) : Prop := ∀ fd, Stands (kq fd) (table fd)

/-- What epoll promises about one observation: an operation succeeds, and a report is of an
armed entry, in a direction it asks for, and carries its data. -/
def Observation.Correct : Observation → Prop
  | .ctl _ _ rv => rv = 0
  | .report _ f r event =>
    ∃ r' ∈ r, r'.armed = true ∧ r'.wants f = true ∧ event.data = r'.data

/-! ### One change

`ctlFlags` is built from four tests, so each fact about its bits is a finite case check. -/

section ctlFlags

variable (op : CtlOp) (event : EpollEvent) (f : Filter)

/-- Nothing of a change is lost when `kqueue_kevent` clears the kernel's own flags. -/
private theorem ctlFlags_and_not_sysFlags :
    ctlFlags op event f &&& ~~~evSysFlags = ctlFlags op event f := by
  unfold ctlFlags
  split_ifs <;> rfl

@[simp]
theorem ctlFlags_has_enable : (ctlFlags op event f).has evEnable = event.has f.mask := by
  unfold ctlFlags
  split_ifs <;> simp only [*] <;> rfl

@[simp]
theorem ctlFlags_has_disable : (ctlFlags op event f).has evDisable = !event.has f.mask := by
  unfold ctlFlags
  split_ifs <;> simp only [*] <;> rfl

@[simp]
theorem ctlFlags_has_add : (ctlFlags op event f).has evAdd = decide (op = .add) := by
  unfold ctlFlags
  split_ifs <;> simp only [*] <;> rfl

@[simp]
theorem ctlFlags_has_delete : (ctlFlags op event f).has evDelete = false := by
  unfold ctlFlags
  split_ifs <;> rfl

@[simp]
theorem ctlFlags_has_forceOneshot : (ctlFlags op event f).has evForceOneshot = false := by
  unfold ctlFlags
  split_ifs <;> rfl

/-- What a new knote keeps of a change are the flags of the two modes. -/
theorem ctlFlags_and_not_actions :
    ctlFlags op event f &&&
        ~~~(evAdd ||| evDelete ||| evEnable ||| evDisable ||| evForceOneshot) =
      (Registration.ofEvent event).modeFlags := by
  simp only [ctlFlags, Registration.modeFlags, Registration.ofEvent]
  split_ifs <;> simp only [*] <;> rfl

end ctlFlags

@[simp]
theorem wants_ofEvent (event : EpollEvent) (f : Filter) :
    (Registration.ofEvent event).wants f = event.has f.mask := by
  cases f <;> rfl

/-- `ADD` creates the knote that stands for the direction. -/
theorem newKnote_ctlChange (op : CtlOp) (fd : ℕ) (event : EpollEvent) (f : Filter) :
    newKnote (ctlChange op fd event f) = (Registration.ofEvent event).knote f := by
  simp only [newKnote, ctlChange, Registration.knote, ctlFlags_and_not_actions,
    ctlFlags_has_disable, wants_ofEvent]
  rfl

/-- `MOD` makes a knote stand for the direction if the knote was created with the modes that
the `MOD` asks for. -/
theorem update_ctlChange {kn : Knote} {event : EpollEvent}
    (h : kn.flags = (Registration.ofEvent event).modeFlags) (op : CtlOp) (fd : ℕ)
    (f : Filter) :
    kn.update (ctlChange op fd event f) = (Registration.ofEvent event).knote f := by
  simp only [Knote.update, ctlChange, Registration.knote, ctlFlags_has_enable,
    ctlFlags_has_disable, ctlFlags_has_forceOneshot, wants_ofEvent, Bool.false_eq_true,
    if_false, h]
  cases event.has f.mask <;> rfl

/-- A change of `ADD` on a direction that has no knote. -/
theorem kqueueRegister_add {kq : Kqueue} {fd : ℕ} {f : Filter} (h : kq fd f = none)
    (event : EpollEvent) :
    kqueueRegister kq (ctlChange .add fd event f) =
      .ok (kq.set fd f (some ((Registration.ofEvent event).knote f))) := by
  rw [← newKnote_ctlChange .add fd event f]
  simp [kqueueRegister, ctlChange, h]

/-- A change of `MOD` on a direction whose knote has the modes that the `MOD` asks for. -/
theorem kqueueRegister_mod {kq : Kqueue} {fd : ℕ} {f : Filter} {kn : Knote}
    (h : kq fd f = some kn) {event : EpollEvent}
    (hm : kn.flags = (Registration.ofEvent event).modeFlags) :
    kqueueRegister kq (ctlChange .mod fd event f) =
      .ok (kq.set fd f (some ((Registration.ofEvent event).knote f))) := by
  rw [← update_ctlChange hm .mod fd f]
  simp [kqueueRegister, ctlChange, h]

/-- A change of `DEL` on a direction that has a knote. -/
theorem kqueueRegister_del {kq : Kqueue} {fd : ℕ} {f : Filter} {kn : Knote}
    (h : kq fd f = some kn) :
    kqueueRegister kq (delChange fd f) = .ok (kq.set fd f none) := by
  have hed : ¬ (evDelete.has evEnable = true ∧ evDelete.has evDisable = true) := by decide
  have hdel : evDelete.has evDelete = true := by decide
  simp only [kqueueRegister, delChange, if_neg hed, h]
  exact if_pos hdel

/-! ### Two changes -/

/-- Replacing both knotes of a descriptor replaces its row. -/
theorem set_read_set_write (kq : Kqueue) (fd : ℕ) (row : Filter → Option Knote) :
    (kq.set fd .read (row .read)).set fd .write (row .write) = Function.update kq fd row := by
  have hrow : Function.update (Function.update (kq fd) .read (row .read)) .write (row .write)
      = row := by
    funext f
    cases f <;> rfl
  simp only [Kqueue.set, Function.update_self, Function.update_idem, hrow]

theorem set_read_apply_write (kq : Kqueue) (fd : ℕ) (kn : Option Knote) :
    kq.set fd .read kn fd .write = kq fd .write := by
  simp [Kqueue.set]

/-- If each direction's change goes through by itself, so does the list of the two. -/
theorem ffKevent_pair {kq : Kqueue} {fd : ℕ} {kev : Filter → Kevent}
    {row : Filter → Option Knote} (hsys : ∀ f, (kev f).flags &&& ~~~evSysFlags = (kev f).flags)
    (hreg : ∀ kq' f, kq' fd f = kq fd f → kqueueRegister kq' (kev f) = .ok (kq'.set fd f (row f))) :
    ffKevent kq [kev .read, kev .write] = (Function.update kq fd row, 0) := by
  simp only [ffKevent, kevent, hsys, hreg kq .read rfl,
    hreg _ .write (set_read_apply_write kq fd _), set_read_set_write]

theorem vosEpollCtl_add {kq : Kqueue} {fd : ℕ} (h : ∀ f, kq fd f = none)
    (event : EpollEvent) :
    vosEpollCtl kq .add fd (some event) =
      (Function.update kq fd fun f => some ((Registration.ofEvent event).knote f), 0) :=
  ffKevent_pair (ctlFlags_and_not_sysFlags .add event) fun _ f hf =>
    kqueueRegister_add (hf.trans (h f)) event

theorem vosEpollCtl_mod {kq : Kqueue} {fd : ℕ} {r : Registration}
    (h : ∀ f, kq fd f = some (r.knote f)) {event : EpollEvent}
    (hm : r.modeFlags = (Registration.ofEvent event).modeFlags) :
    vosEpollCtl kq .mod fd (some event) =
      (Function.update kq fd fun f => some ((Registration.ofEvent event).knote f), 0) :=
  ffKevent_pair (ctlFlags_and_not_sysFlags .mod event) fun _ f hf =>
    kqueueRegister_mod (hf.trans (h f)) hm

theorem vosEpollCtl_del {kq : Kqueue} {fd : ℕ} {r : Registration}
    (h : ∀ f, kq fd f = some (r.knote f)) (event : Option EpollEvent) :
    vosEpollCtl kq .del fd event = (Function.update kq fd fun _ => none, 0) :=
  ffKevent_pair (fun _ => show evDelete &&& ~~~evSysFlags = evDelete from rfl) fun _ f hf =>
    kqueueRegister_del (hf.trans (h f))

/-! ### One report -/

@[simp]
theorem modeFlags_has_oneshot (r : Registration) : r.modeFlags.has evOneshot = r.oneshot := by
  unfold Registration.modeFlags
  split_ifs <;> simp only [*] <;> rfl

@[simp]
theorem modeFlags_has_dispatch (r : Registration) : r.modeFlags.has evDispatch = false := by
  unfold Registration.modeFlags
  split_ifs <;> rfl

/-- What is reported where the knotes stand for the table: an armed entry, in a direction it
asks for, with its data. The knote goes if the entry is one-shot. -/
theorem scan_of_stands {kq kq' : Kqueue} {table : Table} {fd : ℕ} {f : Filter}
    {status : Flags} {fflags : BitVec 32} {data : BitVec 64} {kev : Kevent}
    (hst : Stands (kq fd) (table fd))
    (h : scan kq fd f status fflags data = some (kq', kev)) :
    ∃ r, table fd = some r ∧ r.armed = true ∧ r.wants f = true ∧ kev.udata = r.data ∧
      kq' = if r.oneshot then kq.set fd f none else kq := by
  rcases hr : table fd with _ | r
  · rw [hr] at hst
    simp only [scan, hst f, reduceCtorEq] at h
  · rw [hr] at hst
    refine ⟨r, rfl, ?_⟩
    by_cases ha : r.armed = true
    · have hkn : kq fd f = some (r.knote f) := by
        simp only [Stands, if_pos ha] at hst
        exact hst f
      simp only [scan, hkn, Registration.knote, modeFlags_has_oneshot,
        modeFlags_has_dispatch] at h
      rcases hw : r.wants f with _ | _
      · simp [hw] at h
      · rw [hw] at h
        by_cases ho : r.oneshot = true
        · obtain ⟨rfl, rfl⟩ : kq.set fd f none = kq' ∧ _ = kev := by simpa [ho] using h
          exact ⟨ha, rfl, rfl, (if_pos ho).symm⟩
        · obtain ⟨rfl, rfl⟩ : kq = kq' ∧ _ = kev := by simpa [ho] using h
          exact ⟨ha, rfl, rfl, (if_neg ho).symm⟩
    · simp only [Stands, if_neg ha] at hst
      rcases hkn : kq fd f with _ | kn
      · simp [scan, hkn] at h
      · simp [scan, hkn, hst f kn hkn] at h

/-- A one-shot report of an entry that asks for one direction leaves no enabled knote. -/
theorem stands_of_oneshot {row : Filter → Option Knote} {r : Registration} {f : Filter}
    (hrow : ∀ f, row f = some (r.knote f)) (hw : r.wants f = true)
    (hone : ¬ (r.input = true ∧ r.output = true)) :
    Stands (Function.update row f none) (some { r with armed := false }) := by
  intro f' kn hkn
  have hne : f' ≠ f := by
    rintro rfl
    simp at hkn
  rw [Function.update_of_ne hne, hrow f'] at hkn
  obtain rfl : r.knote f' = kn := by simpa using hkn
  have hw' : r.wants f' = false := by
    cases f <;> cases f' <;> simp_all [Registration.wants]
  simp [Registration.knote, hw']

/-! ### Runs -/

/-- The uses of `vos_epoll` that the two knotes can follow.

* `MOD` is called for an armed entry and repeats its trigger mode and its one-shot mode.
* `DEL` is called for an armed entry.
* An event is reported for an entry whose data is not zero and which, if it is one-shot, asks
  for one direction only. -/
def Plain (w : World) : Action → Prop
  | .ctl .add _ _ => True
  | .ctl .mod fd event => ∀ r ∈ w.table fd, r.armed = true ∧
      r.edge = event.has soEpollEt ∧ r.oneshot = event.has soEpollOneshot
  | .ctl .del fd _ => ∀ r ∈ w.table fd, r.armed = true
  | .report fd _ _ _ _ _ => ∀ r ∈ w.table fd, r.data ≠ 0 ∧
      (r.oneshot = true → ¬ (r.input = true ∧ r.output = true))

instance (w : World) : ∀ a, Decidable (Plain w a)
  | .ctl .add _ _ => inferInstanceAs (Decidable True)
  | .ctl .mod fd _ => inferInstanceAs (Decidable (∀ r ∈ w.table fd, _))
  | .ctl .del fd _ => inferInstanceAs (Decidable (∀ r ∈ w.table fd, _))
  | .report fd _ _ _ _ _ => inferInstanceAs (Decidable (∀ r ∈ w.table fd, _))

/-- The cases in which an operation succeeds in epoll. -/
theorem Table.ctl_cases {table table' : Table} {op : CtlOp} {fd : ℕ} {event : EpollEvent}
    (h : table.ctl op fd event = some table') :
    (op = .add ∧ table fd = none ∧
        table' = Function.update table fd (some (.ofEvent event))) ∨
      (∃ r, op = .mod ∧ table fd = some r ∧
        table' = Function.update table fd (some (.ofEvent event))) ∨
      ∃ r, op = .del ∧ table fd = some r ∧ table' = Function.update table fd none := by
  unfold Table.ctl at h
  split at h
  · next hn => exact .inl ⟨rfl, hn, (Option.some.inj h).symm⟩
  · next r hr => exact .inr (.inl ⟨r, rfl, hr, (Option.some.inj h).symm⟩)
  · next r hr => exact .inr (.inr ⟨r, rfl, hr, (Option.some.inj h).symm⟩)
  · exact absurd h nofun

theorem Simulates.update {kq : Kqueue} {table : Table} (h : Simulates kq table) {fd : ℕ}
    {row : Filter → Option Knote} {r : Option Registration} (hrow : Stands row r) :
    Simulates (Function.update kq fd row) (Function.update table fd r) := by
  intro fd'
  by_cases hfd : fd' = fd
  · subst hfd
    simpa using hrow
  · rw [Function.update_of_ne hfd, Function.update_of_ne hfd]
    exact h fd'

theorem Simulates.knote {kq : Kqueue} {table : Table} (h : Simulates kq table) {fd : ℕ}
    {r : Registration} (hr : table fd = some r) (ha : r.armed = true) (f : Filter) :
    kq fd f = some (r.knote f) := by
  have hst := h fd
  rw [hr] at hst
  simp only [Stands, if_pos ha] at hst
  exact hst f

theorem stands_ofEvent (event : EpollEvent) :
    Stands (fun f => some ((Registration.ofEvent event).knote f)) (some (.ofEvent event)) :=
  fun _ => rfl

/-- An admitted operation returns `0` and keeps the relation. -/
theorem Simulates.ctl {w : World} (h : Simulates w.kq w.table) {op : CtlOp} {fd : ℕ}
    {event : EpollEvent} (hok : Plain w (.ctl op fd event)) {table : Table}
    (ht : w.table.ctl op fd event = some table) :
    ∃ kq, vosEpollCtl w.kq op fd (some event) = (kq, 0) ∧ Simulates kq table := by
  rcases Table.ctl_cases ht with ⟨rfl, hn, rfl⟩ | ⟨r, rfl, hr, rfl⟩ | ⟨r, rfl, hr, rfl⟩
  · have hrow := h fd
    rw [hn] at hrow
    exact ⟨_, vosEpollCtl_add hrow event, h.update (stands_ofEvent event)⟩
  · obtain ⟨ha, hedge, hone⟩ := hok r hr
    have hm : r.modeFlags = (Registration.ofEvent event).modeFlags := by
      rw [Registration.modeFlags, hedge, hone]
      rfl
    exact ⟨_, vosEpollCtl_mod (h.knote hr ha) hm, h.update (stands_ofEvent event)⟩
  · have ha : r.armed = true := hok r hr
    exact ⟨_, vosEpollCtl_del (h.knote hr ha) _, h.update fun _ => rfl⟩

/-- An admitted report is one that epoll may make, and keeps the relation. -/
theorem Simulates.report {w : World} (h : Simulates w.kq w.table) {fd : ℕ} {f : Filter}
    {status : Flags} {fflags : BitVec 32} {data : BitVec 64} {old : EpollEvent}
    (hok : Plain w (.report fd f status fflags data old)) {kq : Kqueue} {kev : Kevent}
    (hs : scan w.kq fd f status fflags data = some (kq, kev)) :
    (Observation.report fd f (w.table fd) (vosEventToEpoll old kev)).Correct ∧
      Simulates kq (Function.update w.table fd ((w.table fd).map .reported)) := by
  obtain ⟨r, hr, ha, hw, hdata, hkq⟩ := scan_of_stands (h fd) hs
  obtain ⟨hne, hone⟩ := hok r hr
  refine ⟨⟨r, hr, ha, hw, ?_⟩, ?_⟩
  · simp only [vosEventToEpoll, hdata, ne_eq, hne, not_false_eq_true, if_true]
  · rw [hkq, hr, Option.map_some]
    by_cases ho : r.oneshot = true
    · rw [if_pos ho, Registration.reported, if_pos ho]
      exact h.update (stands_of_oneshot (h.knote hr ha) hw (hone ho))
    · rw [if_neg ho, Registration.reported, if_neg ho, ← hr, Function.update_eq_self]
      exact h

/-- **The knotes follow the interest table.** In every plain run all operations return `0`,
every report is of an armed entry in a direction it asks for and carries the entry's data,
and the knotes stand for the table: the modes, directions and data of an armed entry are those
of its last `ADD` or `MOD`, a spent one-shot entry has no enabled knote, and a deleted one has
no knote. -/
theorem refines_of_plain {w : World} (h : Reach step Plain init w) :
    Simulates w.kq w.table ∧ ∀ o ∈ w.log, o.Correct := by
  refine h.induct (I := fun w => Simulates w.kq w.table ∧ ∀ o ∈ w.log, o.Correct) ?_ ?_
  · exact ⟨fun _ _ => rfl, by simp [init]⟩
  rintro w w' a ⟨hsim, hlog⟩ hok hs
  cases a with
  | ctl op fd event =>
    obtain ⟨table, ht, rfl⟩ := Option.map_eq_some_iff.mp hs
    obtain ⟨kq, hctl, hkq⟩ := hsim.ctl hok ht
    simp only [hctl, List.forall_mem_append, List.forall_mem_singleton]
    exact ⟨hkq, hlog, rfl⟩
  | report fd f status fflags data old =>
    obtain ⟨⟨kq, kev⟩, hscan, rfl⟩ := Option.map_eq_some_iff.mp hs
    obtain ⟨hcor, hkq⟩ := hsim.report hok hscan
    simp only [List.forall_mem_append, List.forall_mem_singleton]
    exact ⟨hkq, hlog, hcor⟩

/-- A level-triggered entry for both directions is modified to input only, reported and
deleted. The descriptor is then added one-shot and reported once. -/
theorem refines_of_plain_modified :
    ∃ w, Reach step Plain init w ∧
      w.log = [.ctl .add 3 0, .ctl .mod 3 0,
        .report 3 .read (some ⟨false, false, true, false, 8, true⟩) ⟨soEpollIn, 8⟩,
        .ctl .del 3 0, .ctl .add 3 0,
        .report 3 .write (some ⟨false, true, false, true, 9, true⟩) ⟨soEpollOut, 9⟩] ∧
      Simulates w.kq w.table ∧ ∀ o ∈ w.log, o.Correct := by
  have hrun : Reach step Plain init _ := reach_of_exec
    [.ctl .add 3 ⟨soEpollIn ||| soEpollOut, 7⟩, .ctl .mod 3 ⟨soEpollIn, 8⟩,
      .report 3 .read 0 0 1 ⟨0, 0⟩, .ctl .del 3 ⟨0, 0⟩,
      .ctl .add 3 ⟨soEpollOut ||| soEpollOneshot, 9⟩, .report 3 .write 0 0 1 ⟨0, 0⟩]
    (by decide) rfl
  exact ⟨_, hrun, rfl, refines_of_plain hrun⟩

/-- **The knotes do not follow the interest table in every run.**

* `MOD` from edge- to level-triggered succeeds and leaves `EV_CLEAR` on the knote.
* A one-shot entry for both directions reports output after it has reported input. The `MOD`
  that should arm it again fails.
* `DEL` of a one-shot entry that has reported input fails and leaves the write knote.
* An entry with data zero is reported with its descriptor as data. -/
theorem not_refines :
    (∃ w, Reachable step init w ∧ w.log = [.ctl .add 3 0, .ctl .mod 3 0] ∧
      w.table 3 = some ⟨false, false, true, false, 7, true⟩ ∧
      w.kq 3 .read = some ⟨evClear, false, 7⟩) ∧
    (∃ w, Reachable step init w ∧ w.log = [.ctl .add 3 0,
      .report 3 .read (some ⟨false, true, true, true, 7, true⟩) ⟨soEpollIn, 7⟩,
      .report 3 .write (some ⟨false, true, true, true, 7, false⟩) ⟨soEpollOut, 7⟩,
      .ctl .mod 3 (-1)]) ∧
    (∃ w, Reachable step init w ∧ w.log = [.ctl .add 3 0,
      .report 3 .read (some ⟨false, true, true, true, 7, true⟩) ⟨soEpollIn, 7⟩,
      .ctl .del 3 (-1)] ∧ w.table 3 = none ∧
      w.kq 3 .write = some ⟨evOneshot, false, 7⟩) ∧
    ∃ w, Reachable step init w ∧ w.log = [.ctl .add 3 0,
      .report 3 .read (some ⟨false, false, true, false, 0, true⟩) ⟨soEpollIn, 3⟩] := by
  have hmod : Reachable step init _ := reachable_of_exec
    [.ctl .add 3 ⟨soEpollIn ||| soEpollEt, 7⟩, .ctl .mod 3 ⟨soEpollIn, 7⟩] rfl
  have harm : Reachable step init _ := reachable_of_exec
    [.ctl .add 3 ⟨soEpollIn ||| soEpollOut ||| soEpollOneshot, 7⟩,
      .report 3 .read 0 0 1 ⟨0, 0⟩, .report 3 .write 0 0 1 ⟨0, 0⟩,
      .ctl .mod 3 ⟨soEpollIn ||| soEpollOut ||| soEpollOneshot, 7⟩] rfl
  have hdel : Reachable step init _ := reachable_of_exec
    [.ctl .add 3 ⟨soEpollIn ||| soEpollOut ||| soEpollOneshot, 7⟩,
      .report 3 .read 0 0 1 ⟨0, 0⟩, .ctl .del 3 ⟨0, 0⟩] rfl
  have hdata : Reachable step init _ := reachable_of_exec
    [.ctl .add 3 ⟨soEpollIn, 0⟩, .report 3 .read 0 0 1 ⟨0, 0⟩] rfl
  exact ⟨⟨_, hmod, rfl, rfl, rfl⟩, ⟨_, harm, rfl⟩, ⟨_, hdel, rfl, rfl, rfl⟩, _, hdata, rfl⟩

end VosStack.Epoll
