import VosStack.Epoll.Reports
import VosStack.Transition.Linearization

/-!
# The kqueue's operations take effect one at a time

The sections under the lock of several changes, reports and drops interleave, and each operation
takes several. Nevertheless there is one order in which the operations could have been done one
after the other on the table of `Epoll.Kqueue`, with the same results: the order of the sections
in which they mark their knote as in flux (or, for a report without `EV_ONESHOT`, take it out of
flux again). `legal_log` is this statement; it makes what is proved of the table, as in
`Epoll.Refinement`, a statement about threads.

While an operation is on its way the knote may differ from its entry in the table. `Shows` says
by what: a knote that is dropped is still there, and one that is changed has its old `udata`.
-/

namespace VosStack.Epoll.Concurrent

open Transition

/-- The table of knotes as a sequential object. -/
inductive TableSpec (kq : Kqueue) : Op → Kqueue → Prop
  | change {kev : Kevent} {kq' : Kqueue} (h : kqueueRegister kq kev = .ok kq') :
      TableSpec kq (.change kev) kq'
  | refused {kev : Kevent} {e : Errno} (h : kqueueRegister kq kev = .error e) :
      TableSpec kq (.refused kev e) kq
  | report {k : Key} {r : Reading} {kev : Kevent} {kq' : Kqueue}
      (h : scan kq k.1 k.2 r.status r.fflags r.data = some (kq', kev)) :
      TableSpec kq (.report k r kev) kq'
  | dropped {k : Key} : TableSpec kq (.dropped k) (kq.set k.1 k.2 none)

/-- The entry of the table for a knote that is held by a thread at `p`. -/
def Shows (p : Pc) (knote entry : Option Knote) : Prop :=
  match p with
  | .drop _ _ => entry = none
  | .attach kev => entry = knote.map fun kn => { kn with udata := kev.udata }
  | .touch kev => entry = knote.map fun kn => { kn with udata := kev.udata }
  | .exam _ _ => entry = knote ∧
      ∀ kn, knote = some kn → kn.disabled = false ∧ kn.flags.has evOneshot = false
  | _ => False

/-- A thread that holds a knote does not sleep. -/
theorem woken_of_held {p : Pc} {k : Key} (h : p.role.held = some k) : p.woken = p := by
  cases p <;> first | rfl | simp [Pc.role] at h

/-- The table with one entry replaced, as a function of the key. -/
theorem set_apply (kq : Kqueue) (k : Key) (o : Option Knote) (j : Key) :
    kq.set k.1 k.2 o j.1 j.2 = if j = k then o else kq j.1 j.2 := by
  obtain ⟨fd, f⟩ := j
  obtain ⟨fd', f'⟩ := k
  by_cases hfd : fd = fd'
  · subst hfd
    by_cases hf : f = f'
    · subst hf
      simp [Kqueue.set]
    · simp [Kqueue.set, hf]
  · simp [Kqueue.set, hfd]

namespace World

variable {Tid : Type*} [DecidableEq Tid] {w w' : World Tid} {t : Tid} {k : Key}
  {kn : LiveKnote}

/-- The knote as far as the table is concerned. -/
def knote (w : World Tid) (k : Key) : Option Knote := (w.knotes k).map LiveKnote.toKnote

/-- The entry of the table. -/
def entry (w : World Tid) (k : Key) : Option Knote := w.table k.1 k.2

/-- Nobody holds the knote. -/
def Free (w : World Tid) (k : Key) : Prop := ∀ t, (w.pc t).role.held ≠ some k

/-- The entry of the table is the knote, or what the thread that holds it makes of it. -/
def AgreeAt (w : World Tid) (k : Key) : Prop :=
  (∃ t, (w.pc t).role.held = some k ∧ Shows (w.pc t) (w.knote k) (w.entry k)) ∨
    w.Free k ∧ w.entry k = w.knote k

def Agree (w : World Tid) : Prop := ∀ k, w.AgreeAt k

omit [DecidableEq Tid] in
theorem knote_setKnote (w : World Tid) (k : Key) (o : Option LiveKnote) (j : Key) :
    (w.setKnote k o).knote j = if j = k then o.map LiveKnote.toKnote else w.knote j := by
  by_cases hj : j = k
  · simp [knote, setKnote, hj]
  · simp [knote, setKnote, hj]

omit [DecidableEq Tid] in
/-- A knote that is written without a change for the table. -/
theorem knote_write (hkn : w.knotes k = some kn) (kn' : LiveKnote)
    (h : kn'.toKnote = kn.toKnote) : (w.setKnote k (some kn')).knote = w.knote := by
  funext j
  rw [knote_setKnote]
  split
  · next hj => simp [knote, hj, hkn, h]
  · rfl

/-- A step of the thread `t` that concerns the knote `k` only. -/
theorem Agree.act (h : Agree w) (t : Tid) (k : Key)
    (hpc : ∀ u ≠ t, w'.pc u = w.pc u ∨ w'.pc u = (w.pc u).woken)
    (hkn : ∀ j ≠ k, w'.knote j = w.knote j) (htab : ∀ j ≠ k, w'.entry j = w.entry j)
    (hold : ∀ j, (w.pc t).role.held = some j → j = k)
    (hnew : ∀ j, (w'.pc t).role.held = some j → j = k) (hk : w'.AgreeAt k) : Agree w' := by
  intro j
  by_cases hjk : j = k
  · exact hjk ▸ hk
  rcases h j with ⟨u, hu, hs⟩ | ⟨hfree, hs⟩
  · have hut : u ≠ t := by
      rintro rfl
      exact hjk (hold j hu)
    have hpcu : w'.pc u = w.pc u := by
      rcases hpc u hut with h | h
      · exact h
      · rw [h, woken_of_held hu]
    exact .inl ⟨u, hpcu ▸ hu, by rwa [hpcu, hkn j hjk, htab j hjk]⟩
  · refine .inr ⟨fun u hu => ?_, by rwa [hkn j hjk, htab j hjk]⟩
    by_cases hut : u = t
    · subst hut
      exact hjk (hnew j hu)
    · rcases hpc u hut with h | h
      · exact hfree u (h ▸ hu)
      · rw [h, Pc.role_woken] at hu
        exact hfree u hu

omit [DecidableEq Tid] in
/-- Only threads that hold nothing move. -/
theorem Agree.idle (h : Agree w)
    (hpc : ∀ u, w'.pc u = w.pc u ∨ w'.pc u = (w.pc u).woken ∨
      (w.pc u).role.held = none ∧ (w'.pc u).role.held = none)
    (hkn : w'.knote = w.knote) (htab : w'.table = w.table) : Agree w' := by
  have hentry (j : Key) : w'.entry j = w.entry j := by rw [entry, htab, entry]
  intro j
  rcases h j with ⟨u, hu, hs⟩ | ⟨hfree, hs⟩
  · have hpcu : w'.pc u = w.pc u := by
      rcases hpc u with h | h | ⟨h, -⟩
      · exact h
      · rw [h, woken_of_held hu]
      · simp [h] at hu
    exact .inl ⟨u, hpcu ▸ hu, by rwa [hpcu, hkn, hentry]⟩
  · refine .inr ⟨fun u hu => ?_, by rwa [hkn, hentry]⟩
    rcases hpc u with h | h | ⟨-, h⟩
    · exact hfree u (h ▸ hu)
    · rw [h, Pc.role_woken] at hu
      exact hfree u hu
    · simp [h] at hu

omit [DecidableEq Tid] in
theorem Agree.fluxWakeup (h : Agree w) : Agree w.fluxWakeup := by
  unfold World.fluxWakeup
  split
  · exact h.idle (fun u => .inr (.inl rfl)) rfl rfl
  · exact h

/-- A thread that holds nothing moves, and other fields change. -/
theorem Agree.setPc {p : Pc} (h : Agree w) (hold : (w.pc t).role.held = none)
    (hnew : p.role.held = none) (hpc : w'.pc = w.pc) (hkn : w'.knote = w.knote)
    (htab : w'.table = w.table) : Agree (w'.setPc t p) := by
  refine h.idle (fun u => ?_) hkn htab
  by_cases hut : u = t
  · subst hut
    exact .inr (.inr ⟨hold, by simpa [World.setPc] using hnew⟩)
  · exact .inl (by simp [World.setPc, Function.update_of_ne hut, hpc])

theorem others_setPc {p : Pc} (hpc : w'.pc = w.pc) (u : Tid) (hut : u ≠ t) :
    (w'.setPc t p).pc u = w.pc u ∨ (w'.setPc t p).pc u = (w.pc u).woken :=
  .inl (by simp [World.setPc, Function.update_of_ne hut, hpc])

/-- A thread that holds nothing takes a knote that nobody holds. -/
theorem Agree.take (h : Agree w) (hold : (w.pc t).role.held = none)
    (hnew : (w'.pc t).role.held = some k)
    (hpc : ∀ u ≠ t, w'.pc u = w.pc u ∨ w'.pc u = (w.pc u).woken)
    (hkn : ∀ j ≠ k, w'.knote j = w.knote j) (htab : ∀ j ≠ k, w'.entry j = w.entry j)
    (hs : Shows (w'.pc t) (w'.knote k) (w'.entry k)) : Agree w' := by
  refine h.act t k hpc hkn htab (by simp [hold]) ?_ (.inl ⟨t, hnew, hs⟩)
  intro j hj
  exact Option.some.inj (hj.symm.trans hnew)

theorem setPc_pc_self (w : World Tid) (t : Tid) (p : Pc) : (w.setPc t p).pc t = p :=
  Function.update_self ..

/-- A thread that holds nothing takes a knote that nobody holds, to drop it. -/
theorem Agree.drop {after : After} {o : Option LiveKnote} (h : Agree w)
    (hold : (w.pc t).role.held = none) (hpc : w'.pc = w.pc)
    (hkn : w'.knotes = Function.update w.knotes k o)
    (htab : w'.table = w.table.set k.1 k.2 none) : Agree (w'.setPc t (.drop k after)) := by
  refine h.take (t := t) (k := k) hold ?_ (others_setPc hpc) ?_ ?_ ?_
  · simp [setPc_pc_self, Pc.role_drop]
  · intro j hj
    simp [knote, World.setPc, hkn, hj]
  · intro j hj
    rw [entry, show (w'.setPc t (.drop k after)).table = _ from htab, set_apply, if_neg hj, entry]
  · rw [setPc_pc_self, entry, show (w'.setPc t (.drop k after)).table = _ from htab, set_apply,
      if_pos rfl]
    rfl

/-- A thread that holds nothing takes a knote that nobody holds, to make or change it. -/
theorem Agree.change {p : Pc} (h : Agree w) (kev : Kevent) (hold : (w.pc t).role.held = none)
    (hp : p = .attach kev ∨ p = .touch kev)
    (hpc : ∀ u, w'.pc u = w.pc u ∨ w'.pc u = (w.pc u).woken)
    (hkn : ∀ j ≠ kev.key, w'.knote j = w.knote j) (hk : w'.knotes kev.key = some kn)
    (htab : w'.table = w.table.set kev.key.1 kev.key.2
      (some { kn.toKnote with udata := kev.udata })) : Agree (w'.setPc t p) := by
  have hentry (j : Key) : (w'.setPc t p).entry j =
      if j = kev.key then some { kn.toKnote with udata := kev.udata } else w.entry j := by
    rw [entry, show (w'.setPc t p).table = _ from htab, set_apply]
    rfl
  refine h.take (t := t) (k := kev.key) hold ?_ (fun u hut => ?_) hkn (fun j hj => ?_) ?_
  · rw [setPc_pc_self]
    rcases hp with rfl | rfl <;> rfl
  · simpa only [World.setPc, Function.update_of_ne hut] using hpc u
  · rw [hentry, if_neg hj]
  · have hknote : (w'.setPc t p).knote kev.key = some kn.toKnote := by
      rw [knote, show (w'.setPc t p).knotes kev.key = some kn from hk]
      rfl
    rw [setPc_pc_self, hknote, hentry, if_pos rfl]
    rcases hp with rfl | rfl <;> rfl

/-- A thread lets go of the knote that it holds. -/
theorem Agree.release (h : Agree w) (hi : w.view.Inv) (hold : (w.pc t).role.held = some k)
    (hnew : (w'.pc t).role.held = none)
    (hpc : ∀ u ≠ t, w'.pc u = w.pc u ∨ w'.pc u = (w.pc u).woken)
    (hkn : ∀ j ≠ k, w'.knote j = w.knote j) (htab : ∀ j ≠ k, w'.entry j = w.entry j)
    (hk : Shows (w.pc t) (w.knote k) (w.entry k) → w'.entry k = w'.knote k) : Agree w' := by
  refine h.act t k hpc hkn htab ?_ (by simp [hnew]) (.inr ⟨?_, ?_⟩)
  · intro j hj
    exact Option.some.inj (hj.symm.trans hold)
  · intro u hu
    by_cases hut : u = t
    · simp [hut, hnew] at hu
    · have hrole : (w'.pc u).role = (w.pc u).role := by
        rcases hpc u hut with h | h <;> simp [h]
      exact hut (hi.flux.sole u t k ((congrArg Role.held hrole).symm.trans hu) hold)
  · rcases h k with ⟨u, hu, hs⟩ | ⟨hfree, -⟩
    · obtain rfl : u = t := hi.flux.sole u t k hu hold
      exact hk hs
    · exact absurd hold (hfree t)

omit [DecidableEq Tid] in
/-- The entry of a knote that is not in flux. -/
theorem entry_of_not_influx (h : Agree w) (hi : w.view.Inv) (hkn : w.knotes k = some kn)
    (hin : kn.influx = false) : w.entry k = some kn.toKnote := by
  rcases h k with ⟨u, hu, -⟩ | ⟨-, hs⟩
  · simp [hi.flux.knote_eq (t := u) hu hkn] at hin
  · simpa [knote, hkn] using hs

omit [DecidableEq Tid] in
/-- There is no entry without a knote. -/
theorem entry_of_none (h : Agree w) (hi : w.view.Inv) (hkn : w.knotes k = none) :
    w.entry k = none := by
  rcases h k with ⟨u, hu, -⟩ | ⟨-, hs⟩
  · obtain ⟨kn, hkn', -⟩ := hi.flux.held u k hu
    exact absurd (hkn'.symm.trans hkn) (by simp)
  · simpa [knote, hkn] using hs

omit [DecidableEq Tid] in
/-- The entry of a knote that is examined. -/
theorem entry_of_exam (h : Agree w) (hi : w.view.Inv) {c : ScanCall}
    (hpc : w.pc t = .exam k c) (hkn : w.knotes k = some kn) :
    w.entry k = some kn.toKnote ∧ kn.disabled = false ∧ kn.flags.has evOneshot = false := by
  have hold : (w.pc t).role.held = some k := by simp [hpc, Pc.role]
  have hknote : w.knote k = some kn.toKnote := by simp [knote, hkn]
  rcases h k with ⟨u, hu, hs⟩ | ⟨hfree, -⟩
  · obtain rfl : u = t := hi.flux.sole u t k hu hold
    rw [hpc] at hs
    exact ⟨hs.1.trans hknote, hs.2 _ hknote⟩
  · exact absurd hold (hfree t)

theorem knote_enqueueIf (w : World Tid) (k : Key) (kn : LiveKnote) (j : Key) :
    (w.enqueueIf k kn).knote j = if j = k then some kn.toKnote else w.knote j := by
  have hkn : (w.enqueueIf k kn).knotes = (w.view.put k kn).knotes :=
    congrArg View.knotes (view_enqueueIf w k kn)
  obtain ⟨kn', hput, heq, -⟩ := View.put_knotes w.view k kn
  by_cases hj : j = k
  · simp [knote, hkn, hput, hj, heq]
  · rw [knote, hkn, hput, Function.update_of_ne hj, if_neg hj]
    rfl

theorem Agree.countReport {c : ScanCall} {kev : Kevent}
    (h : ∀ c', Agree (w.setPc t (.loop c'))) : Agree (w.countReport t c kev) := by
  unfold World.countReport
  dsimp only
  split
  · exact (h _).fluxWakeup
  · exact h _

theorem pc_enqueueIf (w : World Tid) (k : Key) (kn : LiveKnote) (u : Tid) :
    (w.enqueueIf k kn).pc u = w.pc u ∨ (w.enqueueIf k kn).pc u = (w.pc u).woken := by
  unfold World.enqueueIf World.knoteEnqueue World.kqueueWakeup
  split
  · split
    · exact .inr rfl
    · exact .inl rfl
  · exact .inl rfl

theorem table_enqueueIf (w : World Tid) (k : Key) (kn : LiveKnote) :
    (w.enqueueIf k kn).table = w.table := by
  unfold World.enqueueIf World.knoteEnqueue World.kqueueWakeup
  split
  · split <;> rfl
  · rfl

theorem Agree.enqueueIf (h : Agree w) (hkn : w.knotes k = some kn) {kn' : LiveKnote}
    (heq : kn'.toKnote = kn.toKnote) : Agree (w.enqueueIf k kn') := by
  refine h.idle (fun u => (pc_enqueueIf w k kn' u).imp_right .inl) ?_ (table_enqueueIf w k kn')
  funext j
  rw [knote_enqueueIf]
  split
  · next hj => simp [knote, hj, hkn, heq]
  · rfl

/-- A thread lets go of the knote that it has made or changed. -/
theorem Agree.settle {kn' : LiveKnote} (h : Agree w) (hi : w.view.Inv)
    (hold : (w.pc t).role.held = some k) (hpt : w'.pc t = .idle)
    (hpc : ∀ u ≠ t, w'.pc u = w.pc u) (hkn : w'.knote = w.knote) (htab : w'.table = w.table)
    (hk : Shows (w.pc t) (w.knote k) (w.entry k) → w.entry k = some kn'.toKnote) :
    Agree (w'.enqueueIf k kn') := by
  refine h.release hi (t := t) hold ?_ (fun u hut => ?_) (fun j hj => ?_) (fun j _ => ?_)
    fun hs => ?_
  · rcases pc_enqueueIf w' k kn' t with h | h <;> simp [h, hpt, Pc.role, Pc.woken]
  · rw [← hpc u hut]
    exact pc_enqueueIf w' k kn' u
  · rw [knote_enqueueIf, if_neg hj, hkn]
  · rw [entry, table_enqueueIf, htab, entry]
  · rw [knote_enqueueIf, if_pos rfl, entry, table_enqueueIf, htab]
    exact hk hs

omit [DecidableEq Tid] in
theorem knote_examClear (w : World Tid) (k : Key) (kn : LiveKnote) (r : Reading) (j : Key) :
    (w.examClear k kn r).knote j =
      if j = k then some { kn.toKnote with disabled := kn.disabled || kn.flags.has evDispatch }
      else w.knote j :=
  knote_setKnote w k _ j

omit [DecidableEq Tid] in
theorem entry_examClear (w : World Tid) (k : Key) (kn : LiveKnote) (r : Reading) (j : Key) :
    (w.examClear k kn r).entry j =
      if j = k ∧ kn.flags.has evDispatch = true then some { kn.toKnote with disabled := true }
      else w.entry j := by
  by_cases hd : kn.flags.has evDispatch = true
  · simp [entry, examClear, record, served, hd, set_apply]
  · simp [entry, examClear, record, served, hd]

/-! ### One lemma per transition -/

section transitions

variable {c : ScanCall} {rest : List (Entry Tid)}

theorem Agree.atMarker (h : Agree w) (hpc : w.pc t = .loop c) (rest : List (Entry Tid)) :
    Agree (w.atMarker t c rest) := by
  unfold World.atMarker
  split <;> exact .fluxWakeup (h.setPc (by simp [hpc, Pc.role]) rfl rfl rfl rfl)

theorem Agree.waitFlux (h : Agree w) (hpc : w.pc t = .loop c) : Agree (w.waitFlux t c) := by
  unfold World.waitFlux
  split
  · have hrole : (w.fluxWakeup.pc t).role = (w.pc t).role :=
      congrFun (congrArg View.role (view_fluxWakeup w)) t
    refine Agree.setPc h.fluxWakeup ?_ rfl rfl rfl rfl
    rw [hrole, hpc]
    rfl
  · exact h.setPc (by simp [hpc, Pc.role]) rfl rfl rfl rfl

theorem Agree.takeExam (h : Agree w) (hi : w.view.Inv) (hpc : w.pc t = .loop c)
    (hkn : w.knotes k = some kn) (hin : kn.influx = false) (hd : kn.disabled = false)
    (ho : kn.flags.has evOneshot = false) : Agree (w.takeExam t c k kn rest) := by
  have hknote := knote_write hkn { kn with scan := true, influx := true } rfl
  have hk : w.knote k = some kn.toKnote := by simp [knote, hkn]
  refine h.take (t := t) (k := k) (by simp [hpc, Pc.role]) ?_ (others_setPc rfl)
    (fun j _ => congrFun hknote j) (fun _ _ => rfl) ?_
  · rw [World.takeExam, setPc_pc_self]
    rfl
  · rw [World.takeExam, setPc_pc_self]
    refine ⟨?_, fun kn₁ hkn₁ => ?_⟩
    · exact (entry_of_not_influx h hi hkn hin).trans (hk.symm.trans (congrFun hknote k).symm)
    · obtain rfl : kn.toKnote = kn₁ := Option.some.inj
        (hk.symm.trans ((congrFun hknote k).symm.trans hkn₁))
      exact ⟨hd, ho⟩

/-- The knote that was examined is let go, with nothing changed for the table. -/
theorem Agree.unexam {p : Pc} {kn' : LiveKnote} (h : Agree w) (hi : w.view.Inv)
    (hpc : w.pc t = .exam k c) (hkn : w.knotes k = some kn) (hp : p.role.held = none)
    (hpc' : w'.pc = w.pc) (hkn' : w'.knotes = (w.setKnote k (some kn')).knotes)
    (heq : kn'.toKnote = kn.toKnote) (htab : w'.table = w.table) : Agree (w'.setPc t p) := by
  have hknote : (w'.setPc t p).knote = w.knote := by
    rw [← knote_write hkn kn' heq]
    funext j
    exact congrArg (Option.map LiveKnote.toKnote) (congrFun hkn' j)
  have hentry (j : Key) : (w'.setPc t p).entry j = w.entry j :=
    congrFun (congrFun htab j.1) j.2
  refine h.release hi (t := t) (k := k) (by simp [hpc, Pc.role]) ?_ (others_setPc hpc')
    (fun j _ => congrFun hknote j) (fun j _ => hentry j) fun hs => ?_
  · rw [setPc_pc_self, hp]
  · rw [hpc] at hs
    rw [hentry, hknote]
    exact hs.1

theorem Agree.examClear (h : Agree w) (hi : w.view.Inv) (hpc : w.pc t = .exam k c)
    (hkn : w.knotes k = some kn) (r : Reading) :
    Agree ((w.examClear k kn r).countReport t { c with influx := true } (kn.report k r)) := by
  refine .countReport fun c' => h.release hi (t := t) (k := k) (by simp [hpc, Pc.role])
    (by rw [setPc_pc_self]; rfl) (others_setPc rfl) (fun j hj => ?_) (fun j hj => ?_) fun hs => ?_
  · exact (knote_examClear w k kn r j).trans (if_neg hj)
  · exact (entry_examClear w k kn r j).trans (if_neg (by simp [hj]))
  · rw [hpc] at hs
    have hk : w.entry k = some kn.toKnote := hs.1.trans (by simp [knote, hkn])
    refine (entry_examClear w k kn r k).trans (Eq.trans ?_ (knote_examClear w k kn r k).symm)
    by_cases hdis : kn.flags.has evDispatch = true
    · simp [hdis]
    · simp [hdis, hk]

theorem Agree.knoteDrop {after : After} (h : Agree w) (hi : w.view.Inv)
    (hpc : w.pc t = .drop k after) :
    Agree (((w.dequeueIf k kn).setKnote k none).setPc t after.next).fluxWakeup := by
  have hbase : (w.dequeueIf k kn).pc = w.pc ∧ (w.dequeueIf k kn).knotes = w.knotes ∧
      (w.dequeueIf k kn).table = w.table := by
    unfold dequeueIf
    split <;> exact ⟨rfl, rfl, rfl⟩
  have hknote (j : Key) : ((w.dequeueIf k kn).setKnote k none).knote j =
      if j = k then none else w.knote j := by
    rw [knote_setKnote, knote, hbase.2.1]
    rfl
  have hentry (j : Key) : ((w.dequeueIf k kn).setKnote k none).entry j = w.entry j :=
    congrFun (congrFun hbase.2.2 j.1) j.2
  refine .fluxWakeup (h.release hi (t := t) (k := k) (by simp [hpc, Pc.role_drop])
    (by simp [setPc_pc_self, After.role_next]) (others_setPc hbase.1)
    (fun j hj => (hknote j).trans (if_neg hj)) (fun j _ => hentry j) fun hs => ?_)
  rw [hpc] at hs
  exact ((hentry k).trans hs).trans ((hknote k).trans (if_pos rfl)).symm

theorem Agree.attachNew {kev : Kevent} (h : Agree w) (hpc : w.pc t = .findkn kev) :
    Agree (w.attachNew t kev) := by
  refine h.change kev (by simp [hpc, Pc.role]) (.inl rfl) (fun _ => .inl rfl)
    (fun j hj => ?_) (Function.update_self ..) rfl
  exact (knote_setKnote w kev.key _ j).trans (if_neg hj)

theorem pc_knoteEnqueue (w : World Tid) (k : Key) (kn : LiveKnote) (u : Tid) :
    (w.knoteEnqueue k kn).pc u = w.pc u ∨ (w.knoteEnqueue k kn).pc u = (w.pc u).woken := by
  unfold knoteEnqueue kqueueWakeup
  split
  · exact .inr rfl
  · exact .inl rfl

theorem knote_knoteEnqueue (w : World Tid) (k : Key) (kn : LiveKnote) {j : Key} (hj : j ≠ k) :
    (w.knoteEnqueue k kn).knote j = w.knote j := by
  rw [knoteEnqueue, knote, show (kqueueWakeup _).knotes = _ from
    congrArg View.knotes (view_kqueueWakeup _)]
  exact (knote_setKnote w k _ j).trans (if_neg hj)

theorem Agree.touchOld {kev : Kevent} (h : Agree w) (hpc : w.pc t = .findkn kev) :
    Agree (w.touchOld t kev kn) := by
  have hrelease {w₁ : World Tid} (kn' : LiveKnote)
      (hpc₁ : ∀ u, w₁.pc u = w.pc u ∨ w₁.pc u = (w.pc u).woken)
      (hkn₁ : ∀ j ≠ kev.key, w₁.knote j = w.knote j)
      (heq : kn.toKnote.update kev = { (touched kev kn').toKnote with udata := kev.udata }) :
      Agree (((w₁.record (.change kev) (w.table.set kev.ident kev.filter
        (some (kn.toKnote.update kev)))).setKnote kev.key (some (touched kev kn'))).setPc t
          (.touch kev)) := by
    refine h.change kev (by simp [hpc, Pc.role]) (.inr rfl) hpc₁ (fun j hj => ?_)
      (Function.update_self ..) (by rw [← heq]; rfl)
    exact ((knote_setKnote _ kev.key _ j).trans (if_neg hj)).trans (hkn₁ j hj)
  unfold World.touchOld
  dsimp only
  split_ifs with hforce hput
  · exact hrelease _ (fun _ => .inl rfl) (fun _ _ => rfl) (by simp [Knote.update, touched, hforce])
  · exact hrelease _ (pc_knoteEnqueue w _ _) (fun _ => knote_knoteEnqueue w _ _)
      (by simp [Knote.update, touched, hforce])
  · exact hrelease _ (fun _ => .inl rfl) (fun _ _ => rfl) (by simp [Knote.update, touched, hforce])

theorem Agree.settleKnote {kev : Kevent} (h : Agree w) (hi : w.view.Inv)
    (hpc : w.pc t = .attach kev ∨ w.pc t = .touch kev) (hkn : w.knotes kev.key = some kn) :
    Agree (w.settleKnote t kev kn) := by
  have hold : (w.pc t).role.held = some kev.key := by
    rcases hpc with hpc | hpc <;> simp [hpc, Pc.role]
  have hshows (hs : Shows (w.pc t) (w.knote kev.key) (w.entry kev.key)) :
      w.entry kev.key = some { kn.toKnote with udata := kev.udata } := by
    have hk : w.knote kev.key = some kn.toKnote := by simp [knote, hkn]
    rw [hk] at hs
    rcases hpc with hpc | hpc <;> rw [hpc] at hs <;> exact hs
  refine .fluxWakeup (h.settle hi (t := t) hold (setPc_pc_self ..) (fun u hut => ?_) rfl rfl
    hshows)
  simp [World.setPc, Function.update_of_ne hut]

theorem Agree.closeWait {fd : ℕ} {influx : Bool} (h : Agree w)
    (hpc : w.pc t = .close fd influx) : Agree (w.closeWait t fd influx) := by
  unfold World.closeWait
  split
  · refine h.idle (fun u => ?_) rfl rfl
    by_cases hut : u = t
    · subst hut
      exact .inr (.inr ⟨by simp [hpc, Pc.role], by simp [World.setPc, Pc.role]⟩)
    · exact .inr (.inl (by simp [World.setPc, Function.update_of_ne hut, wakeup]))
  · exact h.setPc (by simp [hpc, Pc.role]) rfl rfl rfl rfl

end transitions

theorem agree_trans (ht : Trans w w') (hi : w.view.Inv) (h : Agree w) : Agree w' := by
  cases ht with
  | scanNone t => exact h
  | scanCall t m hpc hm => exact h.setPc (by simp [hpc, Pc.role]) rfl rfl rfl rfl
  | sleep t m hpc hc => exact h.setPc (by simp [hpc, Pc.role]) rfl rfl rfl rfl
  | poll t m hpc =>
    have hrole : (w.pc t).role = .out := by rcases hpc with h | h <;> simp [h, Pc.role]
    exact .fluxWakeup (h.setPc (by simp [hrole]) rfl rfl rfl rfl)
  | enter t m hpc hc => exact h.setPc (by simp [hpc, Pc.role]) rfl rfl rfl rfl
  | full t c hpc hc => exact .fluxWakeup (h.setPc (by simp [hpc, Pc.role]) rfl rfl rfl rfl)
  | atMarker t c rest hpc hc hq => exact h.atMarker hpc rest
  | waitFlux t c e rest hpc hc hq he => exact h.waitFlux hpc
  | takeDisabled t c k kn rest hpc hq hkn hin hd =>
    exact h.idle (fun _ => .inl rfl) (knote_write hkn _ rfl) rfl
  | takeDrop t c k kn rest hpc hc hq hkn hin => exact h.drop (by simp [hpc, Pc.role]) rfl rfl rfl
  | takeOneshot t c k kn rest r hpc hc hq hkn hin hd ho =>
    exact h.drop (by simp [hpc, Pc.role]) rfl rfl rfl
  | takeExam t c k kn rest hpc hc hq hkn hin hd ho => exact h.takeExam hi hpc hkn hin hd ho
  | examIdle t c k kn hpc hkn hrd => exact h.unexam hi hpc hkn rfl rfl rfl rfl rfl
  | examClear t c k kn r hpc hkn hf => exact h.examClear hi hpc hkn r
  | examAgain t c k kn r hpc hkn hf =>
    exact .countReport fun _ => h.unexam hi hpc hkn rfl rfl rfl rfl rfl
  | countOneshot t c kev hpc =>
    exact .countReport fun c' => h.setPc (by simp [hpc, Pc.role]) rfl rfl rfl rfl
  | knoteDrop t k after kn hpc hkn => exact h.knoteDrop hi hpc
  | refusedInval kev hf => exact h
  | registerCall t kev hpc hf => exact h.setPc (by simp [hpc, Pc.role]) rfl rfl rfl rfl
  | attachNew t kev hpc hkn ha => exact h.attachNew hpc
  | refusedNoent t kev hpc hkn ha => exact h.setPc (by simp [hpc, Pc.role]) rfl rfl rfl rfl
  | findknWait t kev kn hpc hkn hin => exact h.setPc (by simp [hpc, Pc.role]) rfl rfl rfl rfl
  | deleteOld t kev kn hpc hkn hin hd => exact h.drop (by simp [hpc, Pc.role]) rfl rfl rfl
  | touchOld t kev kn hpc hkn hin hd => exact h.touchOld hpc
  | settle t kev kn hpc hkn => exact h.settleKnote hi hpc hkn
  | closeCall t fd hpc => exact h.setPc (by simp [hpc, Pc.role]) rfl rfl rfl rfl
  | closeWait t fd f influx kn hpc hkn hin => exact h.closeWait hpc
  | closeDrop t fd f influx kn hpc hkn hin => exact h.drop (by simp [hpc, Pc.role]) rfl rfl rfl
  | closeDone t fd influx hpc =>
    exact .fluxWakeup (h.setPc (by simp [hpc, Pc.role]) rfl rfl rfl rfl)
  | setReady k ready hr => exact h
  | activate k kn hkn =>
    have hready : Agree (w.setReady k true) := h
    exact hready.enqueueIf hkn rfl

theorem agree_of_reachable (h : Reachable step init w) : Agree w := by
  refine h.induct_of (I := Agree) (J := fun w => w.view.Inv) (fun w hw => inv_of_reachable hw)
    (fun k => .inr ⟨fun t => by simp [init, Pc.role], rfl⟩) ?_
  intro w w' a hi ha _ hs
  exact agree_trans (trans_of_step hs) hi ha

/-! ### The log -/

/-- The log and the table do not change. -/
def Silent (w w' : World Tid) : Prop := w'.log = w.log ∧ w'.table = w.table

/-- One operation is added to the log, and done to the table. -/
def Does (w w' : World Tid) : Prop :=
  ∃ op, w'.log = w.log ++ [op] ∧ TableSpec w.table op w'.table

omit [DecidableEq Tid] in
theorem Silent.fluxWakeup (h : Silent w w') : Silent w w'.fluxWakeup := by
  unfold World.fluxWakeup
  split
  · exact h
  · exact h

theorem log_countReport (w : World Tid) (t : Tid) (c : ScanCall) (kev : Kevent) :
    (w.countReport t c kev).log = w.log ∧ (w.countReport t c kev).table = w.table := by
  unfold countReport
  dsimp only
  split
  · exact Silent.fluxWakeup ⟨rfl, rfl⟩
  · exact ⟨rfl, rfl⟩

theorem log_enqueueIf (w : World Tid) (k : Key) (kn : LiveKnote) :
    (w.enqueueIf k kn).log = w.log := by
  unfold World.enqueueIf World.knoteEnqueue World.kqueueWakeup
  split
  · split <;> rfl
  · rfl

theorem log_touchOld (w : World Tid) (t : Tid) (kev : Kevent) (kn : LiveKnote) :
    (w.touchOld t kev kn).log = w.log ++ [.change kev] ∧
      (w.touchOld t kev kn).table =
        w.table.set kev.ident kev.filter (some (kn.toKnote.update kev)) := by
  unfold touchOld knoteEnqueue kqueueWakeup
  dsimp only
  split_ifs <;> exact ⟨rfl, rfl⟩

omit [DecidableEq Tid] in
/-- A change that is on its way does not enable and disable at once. -/
theorem Told.findkn {kev : Kevent} (h : Told w) (hpc : w.pc t = .findkn kev) :
    ¬ (kev.flags.has evEnable ∧ kev.flags.has evDisable) := by
  have hw := h.within t
  rwa [hpc] at hw

/-! What the reports and the changes are on the table. -/

section operations

variable {c : ScanCall} {kev : Kevent}

theorem does_takeOneshot (hk : w.entry k = some kn.toKnote) (hd : kn.disabled = false)
    (ho : kn.flags.has evOneshot = true) (rest : List (Entry Tid)) (r : Reading) :
    Does w (w.takeOneshot t c k kn rest r) := by
  have hk : w.table k.1 k.2 = some kn.toKnote := hk
  refine ⟨_, rfl, .report ?_⟩
  simp [scan, hk, hd, ho, takeOneshot, takeLast, setPc, setKnote, served, record, Knote.report]

theorem does_examClear (ha : Agree w) (hi : w.view.Inv) (hpc : w.pc t = .exam k c)
    (hkn : w.knotes k = some kn) (r : Reading) :
    Does w ((w.examClear k kn r).countReport t { c with influx := true } (kn.report k r)) := by
  obtain ⟨hk, hd, ho⟩ := entry_of_exam ha hi hpc hkn
  have hk : w.table k.1 k.2 = some kn.toKnote := hk
  obtain ⟨hlog, htab⟩ := log_countReport (w.examClear k kn r) t { c with influx := true }
    (kn.report k r)
  refine ⟨.report k r (kn.report k r), hlog, htab ▸ .report ?_⟩
  by_cases hdis : kn.flags.has evDispatch = true
  · simp [scan, hk, hd, ho, hdis, examClear, served, record, Knote.report]
  · simp [scan, hk, hd, ho, hdis, examClear, served, record, Knote.report]

theorem does_examAgain (ha : Agree w) (hi : w.view.Inv) (hpc : w.pc t = .exam k c)
    (hkn : w.knotes k = some kn) (hf : kn.flags.has (evClear ||| evDispatch) = false)
    (r : Reading) :
    Does w ((w.examAgain k kn r).countReport t { c with influx := true } (kn.report k r)) := by
  obtain ⟨hk, hd, ho⟩ := entry_of_exam ha hi hpc hkn
  have hk : w.table k.1 k.2 = some kn.toKnote := hk
  obtain ⟨hlog, htab⟩ := log_countReport (w.examAgain k kn r) t { c with influx := true }
    (kn.report k r)
  have hdis : kn.flags.has evDispatch = false := by
    rw [Flags.has_or, Bool.or_eq_false_iff] at hf
    exact hf.2
  refine ⟨.report k r (kn.report k r), hlog, ?_⟩
  rw [htab]
  exact .report (by simp [scan, hk, hd, ho, hdis, examAgain, record, insertTail, served,
    setKnote, Knote.report])

theorem does_attachNew (hk : w.entry kev.key = none) (hadd : kev.flags.has evAdd = true)
    (hf : ¬ (kev.flags.has evEnable ∧ kev.flags.has evDisable)) : Does w (w.attachNew t kev) := by
  have hk : w.table kev.ident kev.filter = none := hk
  refine ⟨_, rfl, .change ?_⟩
  simp [Epoll.kqueueRegister, hf, hk, hadd, attachNew, setPc, setKnote, record]

theorem does_refusedNoent (hk : w.entry kev.key = none) (hadd : kev.flags.has evAdd = false)
    (hf : ¬ (kev.flags.has evEnable ∧ kev.flags.has evDisable)) :
    Does w ((w.record (.refused kev .enoent) w.table).setPc t .idle) := by
  have hk : w.table kev.ident kev.filter = none := hk
  refine ⟨_, rfl, .refused ?_⟩
  simp [Epoll.kqueueRegister, hf, hk, hadd]

theorem does_deleteOld (hk : w.entry kev.key = some kn.toKnote)
    (hd : kev.flags.has evDelete = true)
    (hf : ¬ (kev.flags.has evEnable ∧ kev.flags.has evDisable)) :
    Does w (w.deleteOld t kev kn) := by
  have hk : w.table kev.ident kev.filter = some kn.toKnote := hk
  refine ⟨_, rfl, .change ?_⟩
  simp [Epoll.kqueueRegister, hf, hk, hd, deleteOld, setPc, setKnote, record]

theorem does_touchOld (hk : w.entry kev.key = some kn.toKnote)
    (hd : kev.flags.has evDelete = false)
    (hf : ¬ (kev.flags.has evEnable ∧ kev.flags.has evDisable)) :
    Does w (w.touchOld t kev kn) := by
  have hk : w.table kev.ident kev.filter = some kn.toKnote := hk
  obtain ⟨hlog, htab⟩ := log_touchOld w t kev kn
  refine ⟨_, hlog, ?_⟩
  rw [htab]
  exact .change (by simp [Epoll.kqueueRegister, hf, hk, hd])

theorem silent_enqueueIf (h : Silent w w') (k : Key) (kn : LiveKnote) :
    Silent w (w'.enqueueIf k kn) :=
  ⟨(log_enqueueIf w' k kn).trans h.1, (table_enqueueIf w' k kn).trans h.2⟩

end operations

/-- Each step does nothing to the table, or one operation on it. -/
theorem silent_or_does (ht : Trans w w') (hi : w.view.Inv) (hs : Told w) (ha : Agree w) :
    Silent w w' ∨ Does w w' := by
  cases ht with
  | scanNone t => exact .inl ⟨rfl, rfl⟩
  | scanCall t m hpc hm => exact .inl ⟨rfl, rfl⟩
  | sleep t m hpc hc => exact .inl ⟨rfl, rfl⟩
  | poll t m hpc => exact .inl (.fluxWakeup ⟨rfl, rfl⟩)
  | enter t m hpc hc => exact .inl ⟨rfl, rfl⟩
  | full t c hpc hc => exact .inl (.fluxWakeup ⟨rfl, rfl⟩)
  | atMarker t c rest hpc hc hq =>
    unfold atMarker
    split <;> exact .inl (.fluxWakeup ⟨rfl, rfl⟩)
  | waitFlux t c e rest hpc hc hq he =>
    unfold waitFlux
    split
    · exact .inl (.fluxWakeup ⟨rfl, rfl⟩)
    · exact .inl ⟨rfl, rfl⟩
  | takeDisabled t c k kn rest hpc hq hkn hin hd => exact .inl ⟨rfl, rfl⟩
  | takeDrop t c k kn rest hpc hc hq hkn hin => exact .inr ⟨_, rfl, .dropped⟩
  | takeOneshot t c k kn rest r hpc hc hq hkn hin hd ho =>
    exact .inr (does_takeOneshot (entry_of_not_influx ha hi hkn hin) hd ho rest r)
  | takeExam t c k kn rest hpc hc hq hkn hin hd ho => exact .inl ⟨rfl, rfl⟩
  | examIdle t c k kn hpc hkn hrd => exact .inl ⟨rfl, rfl⟩
  | examClear t c k kn r hpc hkn hf => exact .inr (does_examClear ha hi hpc hkn r)
  | examAgain t c k kn r hpc hkn hf => exact .inr (does_examAgain ha hi hpc hkn hf r)
  | countOneshot t c kev hpc => exact .inl (log_countReport w t c kev)
  | knoteDrop t k after kn hpc hkn =>
    refine .inl (.fluxWakeup ?_)
    unfold dequeueIf
    split <;> exact ⟨rfl, rfl⟩
  | refusedInval kev hf =>
    refine .inr ⟨_, rfl, .refused ?_⟩
    simp [Epoll.kqueueRegister, hf]
  | registerCall t kev hpc hf => exact .inl ⟨rfl, rfl⟩
  | attachNew t kev hpc hkn hadd =>
    exact .inr (does_attachNew (entry_of_none ha hi hkn) hadd (hs.findkn hpc))
  | refusedNoent t kev hpc hkn hadd =>
    exact .inr (does_refusedNoent (entry_of_none ha hi hkn) hadd (hs.findkn hpc))
  | findknWait t kev kn hpc hkn hin => exact .inl ⟨rfl, rfl⟩
  | deleteOld t kev kn hpc hkn hin hd =>
    exact .inr (does_deleteOld (entry_of_not_influx ha hi hkn hin) hd (hs.findkn hpc))
  | touchOld t kev kn hpc hkn hin hd =>
    exact .inr (does_touchOld (entry_of_not_influx ha hi hkn hin) hd (hs.findkn hpc))
  | settle t kev kn hpc hkn => exact .inl (.fluxWakeup (silent_enqueueIf ⟨rfl, rfl⟩ _ _))
  | closeCall t fd hpc => exact .inl ⟨rfl, rfl⟩
  | closeWait t fd f influx kn hpc hkn hin =>
    unfold closeWait
    split <;> exact .inl ⟨rfl, rfl⟩
  | closeDrop t fd f influx kn hpc hkn hin => exact .inr ⟨_, rfl, .dropped⟩
  | closeDone t fd influx hpc => exact .inl (.fluxWakeup ⟨rfl, rfl⟩)
  | setReady k ready hr => exact .inl ⟨rfl, rfl⟩
  | activate k kn hkn =>
    have hready : Silent w (w.setReady k true) := ⟨rfl, rfl⟩
    exact .inl (silent_enqueueIf hready k _)

/-- **The operations of a kqueue are linearizable.** Whatever the threads do, the changes, reports
and drops that have taken effect are, in the order of the log, a sequential run on the table of
knotes; and the knotes that no thread is working on are those of the table at its end. -/
theorem legal_log (h : Reachable step init w) :
    Legal TableSpec (fun _ _ => none) w.log w.table ∧
      ∀ k, w.Free k → (w.knotes k).map LiveKnote.toKnote = w.table k.1 k.2 := by
  refine ⟨?_, fun k hk => ?_⟩
  · refine Reach.legal (J := fun w => w.view.Inv ∧ Told w ∧ Agree w) World.log World.table h ?_
      rfl ?_
    · exact fun w hw => ⟨inv_of_reachable hw, told_of_reachable hw, agree_of_reachable hw⟩
    · rintro w w' a ⟨hi, ht, ha⟩ _ hs
      exact silent_or_does (trans_of_step hs) hi ht ha
  · rcases agree_of_reachable h k with ⟨t, ht, -⟩ | ⟨-, hs⟩
    · exact absurd ht (hk t)
    · exact hs.symm

/-- An addition, a report and a deletion that is still on its way. -/
theorem legal_log_delete :
    ∃ w : World (Fin 2), Reachable step init w ∧ w.log.length = 3 ∧ w.Free (4, .read) ∧
      Legal TableSpec (fun _ _ => none) w.log w.table ∧
      ∀ k, w.Free k → (w.knotes k).map LiveKnote.toKnote = w.table k.1 k.2 := by
  have hrun : Reachable step (init : World (Fin 2)) _ := reachable_of_exec
    [.kqueueRegister 0 ⟨3, .read, evAdd, 0, 0, 7⟩, .findkn 0, .settle 0,
      .signal (3, .read) true, .kqueueScan 1 4, .retry 1 true, .loopTurn 1 ⟨0, 0, 1⟩,
      .exam 1 ⟨0, 0, 1⟩, .kqueueRegister 0 ⟨3, .read, evDelete, 0, 0, 0⟩, .findkn 0] rfl
  exact ⟨_, hrun, by decide, by unfold Free; decide, legal_log hrun⟩

end World

end VosStack.Epoll.Concurrent
