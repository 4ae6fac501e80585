import VosStack.Epoll.Discipline
import Mathlib.Tactic.SplitIfs

/-!
# The invariant of a kqueue

Two more invariants of all moves, and the invariant of every run of a kqueue with its threads:

* `Live`: a queued knote is active, and an active one that is enabled is queued unless a thread
  is busy with it; a knote that is *due*, because its socket is ready, and has news if the knote
  has `EV_CLEAR`, is active;
* `Queue.Fair`: no knote is reported twice while another entry waits.

`moves_of_trans` connects the views with the machine: a transition of a `World` does nothing to
its view, or one move, or two when a change activates the knote that it is made to.
-/

namespace VosStack.Epoll.Concurrent

namespace View

variable {Tid : Type*} [DecidableEq Tid] {v v' : View Tid}

/-! ### Which knotes are active -/

/-- A thread makes, changes or drops the knote. -/
def Busy (role : Tid → Role) (k : Key) : Prop := ∃ t s, role t = .busy k s

/-- The knote is to be reported: it is enabled and its socket is ready, with news since the last
report if the knote has `EV_CLEAR`. -/
def Due (kn : LiveKnote) (ready fresh : Bool) : Prop :=
  ready = true ∧ kn.disabled = false ∧ (kn.flags.has evClear = true → fresh = true)

instance (kn : LiveKnote) (ready fresh : Bool) : Decidable (Due kn ready fresh) :=
  inferInstanceAs (Decidable (_ ∧ _ ∧ (_ → _)))

/-- A queued knote is active. Unless a thread is busy with it, an enabled knote that is active is
queued, and one that is to be reported is active. -/
structure LiveAt (kn : LiveKnote) (ready fresh : Bool) (busy : Prop) : Prop where
  active : kn.queued = true → kn.active = true
  queued : kn.active = true → kn.disabled = false → ¬ busy → kn.queued = true
  due : Due kn ready fresh → ¬ busy → kn.active = true

theorem LiveAt.mono {kn : LiveKnote} {ready fresh : Bool} {busy busy' : Prop}
    (h : LiveAt kn ready fresh busy) (hb : busy → busy') : LiveAt kn ready fresh busy' :=
  ⟨h.active, fun ha hd hn => h.queued ha hd (hn ∘ hb), fun hd hn => h.due hd (hn ∘ hb)⟩

/-- `LiveAt` for all knotes. -/
def Live (v : View Tid) : Prop :=
  ∀ k kn, v.knotes k = some kn → LiveAt kn (v.ready k) (v.fresh k) (Busy v.role k)

omit [DecidableEq Tid] in
/-- Only the knote `k` is concerned. -/
theorem live_at {k : Key} (h : Live v) (hkn : ∀ j ≠ k, v'.knotes j = v.knotes j)
    (hr : ∀ j ≠ k, v'.ready j = v.ready j) (hf : ∀ j ≠ k, v'.fresh j = v.fresh j)
    (hb : ∀ j ≠ k, Busy v.role j → Busy v'.role j)
    (hk : ∀ kn, v'.knotes k = some kn →
      LiveAt kn (v'.ready k) (v'.fresh k) (Busy v'.role k)) : Live v' := by
  intro j kn hj
  by_cases hjk : j = k
  · subst hjk
    exact hk kn hj
  · rw [hkn j hjk] at hj
    rw [hr j hjk, hf j hjk]
    exact (h j kn hj).mono (hb j hjk)

/-- A thread that changes its role stays busy with the other knotes. -/
theorem busy_update {role : Tid → Role} {t : Tid} {r : Role} {j : Key}
    (ht : ∀ s, role t ≠ .busy j s) (h : Busy role j) : Busy (Function.update role t r) j := by
  obtain ⟨u, s, hu⟩ := h
  have hut : u ≠ t := by
    rintro rfl
    exact ht s hu
  exact ⟨u, s, by rwa [Function.update_of_ne hut]⟩

theorem busy_update_self (role : Tid → Role) (t : Tid) (k : Key) (s : Bool) :
    Busy (Function.update role t (.busy k s)) k :=
  ⟨t, s, Function.update_self ..⟩

/-- A knote with which a thread is busy only has to be active if it is queued. -/
theorem liveAt_of_busy {kn : LiveKnote} {ready fresh : Bool} {busy : Prop} (hb : busy)
    (h : kn.queued = true → kn.active = true) : LiveAt kn ready fresh busy :=
  ⟨h, fun _ _ hn => absurd hb hn, fun _ hn => absurd hb hn⟩

/-- A knote that is not queued, not active and not to be reported. -/
theorem liveAt_of_idle {kn : LiveKnote} {ready fresh : Bool} {busy : Prop}
    (hq : kn.queued = false) (ha : kn.active = false) (hd : ¬ Due kn ready fresh) :
    LiveAt kn ready fresh busy :=
  ⟨by simp [hq], by simp [ha], fun h => absurd h hd⟩

/-- A knote that is written with `put`. -/
theorem live_put {k : Key} {kn : LiveKnote} {w : View Tid} (h : Live v)
    (hkn : w.knotes = v.knotes) (hr : ∀ j ≠ k, w.ready j = v.ready j)
    (hf : ∀ j ≠ k, w.fresh j = v.fresh j) (hb : ∀ j ≠ k, Busy v.role j → Busy w.role j)
    (ha : kn.queued = true → kn.active = true)
    (hd : Due kn (w.ready k) (w.fresh k) → kn.active = true) : Live (w.put k kn) := by
  obtain ⟨kn', hput, heq, hact, -, -, hq⟩ := put_knotes w k kn
  have hdis : kn'.disabled = kn.disabled := congrArg Knote.disabled heq
  have hfl : kn'.flags = kn.flags := congrArg Knote.flags heq
  have hready : (w.put k kn).ready = w.ready := by unfold put; split <;> rfl
  have hfresh : (w.put k kn).fresh = w.fresh := by unfold put; split <;> rfl
  refine live_at (k := k) h ?_ ?_ ?_ ?_ ?_
  · intro j hj
    rw [hput, Function.update_of_ne hj, hkn]
  · rwa [hready]
  · rwa [hfresh]
  · rwa [put_role]
  · intro kn₁ hkn₁
    rw [hput, Function.update_self, Option.some.injEq] at hkn₁
    subst hkn₁
    refine ⟨?_, ?_, ?_⟩
    · rw [hq, hact]
      intro hor
      rcases Bool.or_eq_true_iff.mp hor with h₁ | h₁
      · exact ha h₁
      · exact (Bool.and_eq_true_iff.mp h₁).1
    · intro h₁ h₂ _
      rw [hact] at h₁
      rw [hdis] at h₂
      simp [hq, h₁, h₂]
    · rw [hready, hfresh, hact]
      intro hdue _
      exact hd (by simpa only [Due, hdis, hfl] using hdue)

omit [DecidableEq Tid] in
/-- A knote in the queue is active. -/
theorem active_of_mem (hq : Queued v.knotes v.queue v.count v.role v.exams) (h : Live v)
    {k : Key} {kn : LiveKnote} (hkn : v.knotes k = some kn)
    (hk : .knote k ∈ v.queue ∨ k ∈ v.exams) : kn.queued = true ∧ kn.active = true := by
  have hqd : kn.queued = true := by
    obtain ⟨kn', hkn', hqd⟩ : ∃ kn', v.knotes k = some kn' ∧ kn'.queued = true :=
      hk.elim (fun hk => ((hq.knote k).mp hk).2) (hq.queued k)
    rwa [Option.some.inj (hkn.symm.trans hkn')]
  exact ⟨hqd, (h k kn hkn).active hqd⟩

theorem live_move (hm : Move v v') (hf : Flux v.knotes v.role)
    (hq : Queued v.knotes v.queue v.count v.role v.exams) (h : Live v) : Live v' := by
  cases hm with
  | enter t ht => exact fun k kn hkn => (h k kn hkn).mono (busy_update (by simp [ht]))
  | leave t ht => exact fun k kn hkn => (h k kn hkn).mono (busy_update (by simp [ht]))
  | takeDisabled k kn rest hqu hkn hd =>
    refine live_at (k := k) h (fun j hj => Function.update_of_ne hj ..) (fun _ _ => rfl)
      (fun _ _ => rfl) (fun _ _ => id) fun kn' hkn' => ?_
    obtain rfl : { kn with queued := false } = kn' := by simpa using hkn'
    exact ⟨by simp, by simp [hd], fun hdue => by simp [Due, hd] at hdue⟩
  | takeDrop t k kn rest ht hqu hkn hi =>
    refine live_at (k := k) h (fun j hj => Function.update_of_ne hj ..) (fun _ _ => rfl)
      (fun _ _ => rfl) (fun _ _ => busy_update (by simp [ht])) fun kn' hkn' => ?_
    obtain rfl : { kn with queued := false, influx := true } = kn' := by simpa using hkn'
    exact liveAt_of_busy (busy_update_self v.role t k true) (by simp)
  | takeOneshot t k kn rest ht hqu hkn hi =>
    refine live_at (k := k) h (fun j hj => Function.update_of_ne hj ..) (fun _ _ => rfl)
      (fun j hj => Function.update_of_ne hj ..) (fun _ _ => busy_update (by simp [ht]))
      fun kn' hkn' => ?_
    obtain rfl : { kn with queued := false, influx := true } = kn' := by
      simpa [served] using hkn'
    exact liveAt_of_busy (busy_update_self v.role t k true) (by simp)
  | takeExam t k kn kn' rest ht hqu hkn hi hkn' =>
    obtain ⟨hqd, ha⟩ := active_of_mem hq h hkn (.inl (by simp [hqu]))
    refine live_at (k := k) h (fun j hj => Function.update_of_ne hj ..) (fun _ _ => rfl)
      (fun _ _ => rfl) (fun _ _ => busy_update (by simp [ht])) fun kn₁ hkn₁ => ?_
    obtain rfl : kn' = kn₁ := by simpa using hkn₁
    subst hkn'
    exact ⟨fun _ => ha, fun _ _ _ => hqd, fun _ _ => ha⟩
  | examIdle t k kn ht hkn hr =>
    refine live_at (k := k) h (fun j hj => Function.update_of_ne hj ..) (fun _ _ => rfl)
      (fun _ _ => rfl) (fun _ _ => busy_update (by simp [ht])) fun kn₁ hkn₁ => ?_
    simp only [Function.update_self, Option.some.injEq] at hkn₁
    subst hkn₁
    exact liveAt_of_idle rfl rfl (by simp [Due, hr])
  | examClear t k kn kn' ht hkn hkn' hfl =>
    refine live_at (k := k) h (fun j hj => Function.update_of_ne hj ..) (fun _ _ => rfl)
      (fun j hj => Function.update_of_ne hj ..) (fun _ _ => busy_update (by simp [ht]))
      fun kn₁ hkn₁ => ?_
    obtain rfl : kn' = kn₁ := by simpa [served] using hkn₁
    subst hkn'
    refine liveAt_of_idle rfl rfl ?_
    rintro ⟨-, hdis, hclear⟩
    -- with `EV_DISPATCH` it is disabled now, with `EV_CLEAR` it has no news
    simp only [Bool.or_eq_false_iff] at hdis
    rw [Flags.has_or, hdis.2, Bool.or_false] at hfl
    simpa [served] using hclear hfl
  | examAgain t k kn kn' ht hkn hkn' =>
    obtain ⟨hqd, ha⟩ := active_of_mem hq h hkn (.inr ((hq.exam k).mpr ⟨t, ht⟩))
    refine live_at (k := k) h (fun j hj => Function.update_of_ne hj ..) (fun _ _ => rfl)
      (fun j hj => Function.update_of_ne hj ..) (fun _ _ => busy_update (by simp [ht]))
      fun kn₁ hkn₁ => ?_
    obtain rfl : kn' = kn₁ := by simpa using hkn₁
    subst hkn'
    exact ⟨fun _ => ha, fun _ _ _ => hqd, fun _ _ => ha⟩
  | drop t k s kn ht hkn =>
    refine live_at (k := k) h (fun j hj => Function.update_of_ne hj ..) (fun _ _ => rfl)
      (fun _ _ => rfl) (fun j hj => busy_update (by simp [ht, hj.symm])) fun kn₁ hkn₁ => ?_
    simp at hkn₁
  | attach t k kn ht hkn hi hqd =>
    refine live_at (k := k) h (fun j hj => Function.update_of_ne hj ..) (fun _ _ => rfl)
      (fun _ _ => rfl) (fun _ _ => busy_update (by simp [ht])) fun kn₁ hkn₁ => ?_
    obtain rfl : kn = kn₁ := by simpa using hkn₁
    exact liveAt_of_busy (busy_update_self v.role t k false) (by simp [hqd])
  | grab t k kn kn' ht hkn hi hi' hqd ha =>
    refine live_at (k := k) h (fun j hj => Function.update_of_ne hj ..) (fun _ _ => rfl)
      (fun _ _ => rfl) (fun _ _ => busy_update (by simp [ht])) fun kn₁ hkn₁ => ?_
    obtain rfl : kn' = kn₁ := by simpa using hkn₁
    exact liveAt_of_busy (busy_update_self v.role t k false)
      (fun hqu => ha ((h k kn hkn).active (hqd ▸ hqu)))
  | settle t k kn kn' fresh ht hkn hi hqd ha =>
    refine live_put h rfl (fun _ _ => rfl) (fun j hj => Function.update_of_ne hj ..)
      (fun j hj => busy_update (by simp [ht, hj.symm])) ?_ ?_
    · intro hqu
      rw [ha, (h k kn hkn).active (hqd ▸ hqu), Bool.true_or]
    · rintro ⟨hr, hd, -⟩
      simp_all
  | force k kn kn' hkn hi hqd ha =>
    exact live_put h rfl (fun _ _ => rfl) (fun _ _ => rfl) (fun _ _ => id) (fun _ => ha)
      fun _ => ha
  | setReady k ready fresh hready =>
    refine live_at (k := k) h (fun _ _ => rfl) (fun j hj => Function.update_of_ne hj ..)
      (fun j hj => Function.update_of_ne hj ..) (fun _ _ => id) fun kn hkn => ?_
    refine ⟨(h k kn hkn).active, (h k kn hkn).queued, fun hdue hb => ?_⟩
    -- a knote in flux with which no thread is busy is examined, hence active
    have hi : kn.influx = true := hready (by simpa [Due] using hdue.1) kn hkn
    obtain ⟨t, ht⟩ := hf.owner k kn hkn hi
    cases hr : v.role t with
    | out => simp [hr] at ht
    | scanning => simp [hr] at ht
    | exam j =>
      obtain rfl : j = k := by simpa [hr] using ht
      exact (active_of_mem hq h hkn (.inr ((hq.exam j).mpr ⟨t, hr⟩))).2
    | busy j s =>
      obtain rfl : j = k := by simpa [hr] using ht
      exact absurd ⟨t, s, hr⟩ hb
  | activate k kn fresh hkn =>
    exact live_put h rfl (fun j hj => Function.update_of_ne hj ..)
      (fun j hj => Function.update_of_ne hj ..) (fun _ _ => id) (fun _ => rfl) fun _ => rfl

/-! ### Fairness -/

/-- The entry is a knote that is examined. -/
def Held (exams : List Key) (e : Entry Tid) : Prop := ∃ k ∈ exams, e = .knote k

omit [DecidableEq Tid] in
theorem held_knote_iff {exams : List Key} {k : Key} :
    Held exams (.knote k : Entry Tid) ↔ k ∈ exams := by
  simp [Held]

theorem fair_put {v : View Tid} {k : Key} {kn kn' : LiveKnote}
    (hq : Queued v.knotes v.queue v.count v.role v.exams) (hkn : v.knotes k = some kn)
    (hqd : kn'.queued = kn.queued) (h : Queue.Fair v.queue (Held v.exams) v.since) :
    Queue.Fair (v.put k kn').queue (Held (v.put k kn').exams) (v.put k kn').since := by
  unfold put
  split
  · next hput =>
    refine h.push fun hk => ?_
    obtain ⟨-, kn₁, hkn₁, hq₁⟩ := (hq.knote k).mp hk
    simp_all
  · exact h

theorem fair_move (hm : Move v v') (hq : Queued v.knotes v.queue v.count v.role v.exams)
    (h : Queue.Fair v.queue (Held v.exams) v.since) :
    Queue.Fair v'.queue (Held v'.exams) v'.since := by
  have herase (k : Key) (e : Entry Tid) (he : Held (v.exams.erase k) e) :
      Held v.exams e ∧ e ≠ .knote k := by
    obtain ⟨j, hj, rfl⟩ := he
    obtain ⟨hjk, hj⟩ := hq.nodup_exams.mem_erase_iff.mp hj
    exact ⟨⟨j, hj, rfl⟩, by simpa using hjk⟩
  cases hm with
  | enter t ht =>
    refine h.push fun hm => ?_
    simp [hq.marker t, ht] at hm
  | leave t ht => exact h.withdraw List.erase_sublist fun _ => id
  | takeDisabled k kn rest hqu hkn hd =>
    exact h.withdraw (by rw [hqu]; exact List.sublist_cons_self ..) fun _ => id
  | takeDrop t k kn rest ht hqu hkn hi =>
    exact h.withdraw (by rw [hqu]; exact List.sublist_cons_self ..) fun _ => id
  | takeOneshot t k kn rest ht hqu hkn hi =>
    have hk : k ∉ v.exams := ((hq.knote k).mp (by simp [hqu])).1
    rw [hqu] at h
    refine h.take.serve (.inl rfl) h.nodup.notMem fun e he => ⟨.inr he, ?_⟩
    rintro rfl
    exact hk (held_knote_iff.mp he)
  | takeExam t k kn kn' rest ht hqu hkn hi hkn' =>
    rw [hqu] at h
    refine h.take.withdraw (List.Sublist.refl rest) ?_
    rintro e ⟨j, hj, rfl⟩
    rcases List.mem_cons.mp hj with rfl | hj
    · exact .inl rfl
    · exact .inr ⟨j, hj, rfl⟩
  | examIdle t k kn ht hkn hr =>
    exact h.withdraw (List.Sublist.refl _) fun e he => (herase k e he).1
  | examClear t k kn kn' ht hkn hkn' hfl =>
    have hk : k ∈ v.exams := (hq.exam k).mpr ⟨t, ht⟩
    exact h.serve (held_knote_iff.mpr hk) (fun hmem => ((hq.knote k).mp hmem).1 hk) (herase k)
  | examAgain t k kn kn' ht hkn hkn' =>
    have hk : k ∈ v.exams := (hq.exam k).mpr ⟨t, ht⟩
    have hmem : .knote k ∉ v.queue := fun hmem => ((hq.knote k).mp hmem).1 hk
    exact (h.serve (held_knote_iff.mpr hk) hmem (herase k)).push hmem
  | drop t k s kn ht hkn =>
    refine h.withdraw ?_ fun _ => id
    split
    · exact List.erase_sublist
    · exact List.Sublist.refl _
  | attach t k kn ht hkn hi hqd => exact h
  | grab t k kn kn' ht hkn hi hi' hqd ha => exact h
  | settle t k kn kn' fresh ht hkn hi hqd ha =>
    exact fair_put (hq.setRole (by simp [ht]) nofun (by simp [ht])) hkn hqd h
  | force k kn kn' hkn hi hqd ha => exact fair_put hq hkn hqd h
  | setReady k ready fresh hready => exact h
  | activate k kn fresh hkn => exact fair_put hq hkn rfl h

/-! ### The discipline -/

/-- The discipline of the queue. -/
structure Inv (v : View Tid) : Prop where
  flux : Flux v.knotes v.role
  queued : Queued v.knotes v.queue v.count v.role v.exams
  live : Live v
  fair : Queue.Fair v.queue (Held v.exams) v.since

theorem Inv.move (h : Inv v) (hm : Move v v') : Inv v' where
  flux := flux_move hm h.flux
  queued := queued_move hm h.flux h.queued
  live := live_move hm h.flux h.queued h.live
  fair := fair_move hm h.queued h.fair

theorem Inv.moves (h : Inv v) (hm : Relation.ReflTransGen Move v v') : Inv v' := by
  induction hm with
  | refl => exact h
  | tail _ hm ih => exact ih.move hm

end View

/-! ### The views of a world -/

/-- What the position of a thread says about its role. -/
def Pc.role : Pc → Role
  | .loop _ => .scanning
  | .loopWait _ => .scanning
  | .oneshot _ _ => .scanning
  | .exam k _ => .exam k
  | .drop k (.scan _ _) => .busy k true
  | .drop k _ => .busy k false
  | .attach kev => .busy kev.key false
  | .touch kev => .busy kev.key false
  | _ => .out

@[simp]
theorem Pc.role_woken (p : Pc) : p.woken.role = p.role := by
  cases p <;> rfl

/-- The role in a drop, and after it. -/
def After.scans : After → Bool
  | .scan _ _ => true
  | _ => false

theorem Pc.role_drop (k : Key) (after : After) :
    (Pc.drop k after).role = .busy k after.scans := by
  cases after <;> rfl

theorem After.role_next (after : After) : after.next.role = .dropped after.scans := by
  match after with
  | .scan c none => rfl
  | .scan c (some kev) => rfl
  | .register => rfl
  | .close fd => rfl

namespace World

variable {Tid : Type*} [DecidableEq Tid] (w : World Tid)

/-- The view of a world. -/
def view (w : World Tid) : View Tid where
  knotes := w.knotes
  queue := w.queue
  count := w.count
  role := fun t => (w.pc t).role
  exams := w.exams
  ready := w.ready
  fresh := w.fresh
  since := w.since

omit [DecidableEq Tid] in
@[simp]
theorem view_wakeup : w.wakeup.view = w.view := by
  simp [view, wakeup]

omit [DecidableEq Tid] in
@[simp]
theorem view_fluxWakeup : w.fluxWakeup.view = w.view := by
  unfold fluxWakeup
  split
  · exact view_wakeup w
  · rfl

omit [DecidableEq Tid] in
@[simp]
theorem view_kqueueWakeup : w.kqueueWakeup.view = w.view := by
  unfold kqueueWakeup
  split
  · exact view_wakeup w
  · rfl

theorem view_setPc (t : Tid) (p : Pc) :
    (w.setPc t p).view = { w.view with role := Function.update w.view.role t p.role } := by
  have : (fun u => (Function.update w.pc t p u).role) =
      Function.update (fun u => (w.pc u).role) t p.role := by
    funext u
    exact Function.apply_update (fun _ => Pc.role) w.pc t p u
  simp only [view, setPc, this]

/-- A step within a role. -/
theorem view_setPc_of_role {t : Tid} {p : Pc} (h : w.view.role t = p.role) :
    (w.setPc t p).view = w.view := by
  rw [view_setPc, ← h, Function.update_eq_self]

theorem view_enqueueIf (k : Key) (kn : LiveKnote) :
    (w.enqueueIf k kn).view = w.view.put k kn := by
  unfold enqueueIf View.put
  split
  · exact view_kqueueWakeup _
  · rfl

theorem view_countReport (t : Tid) (c : ScanCall) (kev : Kevent) :
    (w.countReport t c kev).view =
      { w.view with role := Function.update w.view.role t .scanning } := by
  unfold countReport
  dsimp only
  split
  · exact (view_fluxWakeup _).trans (view_setPc w t _)
  · exact view_setPc w t _

theorem view_scanDone (t : Tid) (m : ℕ) (out : List Kevent) :
    (w.scanDone t m out).view = { w.view with role := Function.update w.view.role t .out } :=
  (view_fluxWakeup _).trans (view_setPc _ t .idle)

/-- A scan that waits for a knote in flux, or for another scan, still scans. -/
theorem view_waitFlux {t : Tid} {c : ScanCall} (h : w.view.role t = .scanning) :
    (w.waitFlux t c).view = w.view := by
  have hview : ({ if c.influx then w.fluxWakeup else w with fluxFlag := true } :
      World Tid).view = w.view := by
    split
    · exact view_fluxWakeup w
    · rfl
  rw [waitFlux, view_setPc_of_role _ (by rw [hview]; exact h), hview]

theorem view_closeWait {t : Tid} (h : w.view.role t = .out) (fd : ℕ) (influx : Bool) :
    (w.closeWait t fd influx).view = w.view := by
  have hview : ({ if influx then w.wakeup else w with fluxFlag := true } :
      World Tid).view = w.view := by
    split
    · exact view_wakeup w
    · rfl
  rw [closeWait, view_setPc_of_role _ (by rw [hview]; exact h), hview]

variable {w} {w' : World Tid} {t : Tid} {kn : LiveKnote}

open Relation in
/-- A thread goes on within its role. -/
theorem moves_within {w₁ : World Tid} {p p₁ : Pc} (hpc : w.pc t = p) (hp : p.role = p₁.role)
    (hview : w₁.view = w.view) : ReflTransGen View.Move w.view (w₁.setPc t p₁).view := by
  have hrole : w.view.role t = p₁.role := (congrArg Pc.role hpc).trans hp
  rw [view_setPc_of_role w₁ (by rw [hview, hrole]), hview]

theorem move_atMarker {c : ScanCall} {rest : List (Entry Tid)} (h : w.view.role t = .scanning)
    (hq : w.queue = .marker t :: rest) : View.Move w.view (w.atMarker t c rest).view := by
  obtain rfl : w.queue.erase (.marker t) = rest := by simp [hq]
  unfold atMarker
  split
  · rw [view_fluxWakeup, view_setPc]
    exact .leave t h
  · rw [view_scanDone]
    exact .leave t h

theorem move_knoteDrop {k : Key} {after : After} (hpc : w.pc t = .drop k after)
    (hkn : w.knotes k = some kn) : View.Move w.view
      (((w.dequeueIf k kn).setKnote k none).setPc t after.next).fluxWakeup.view := by
  have hrole : w.view.role t = .busy k after.scans := by simp [view, hpc, Pc.role_drop]
  have hmove := View.Move.drop t k after.scans kn hrole hkn
  rw [view_fluxWakeup, view_setPc, After.role_next]
  unfold dequeueIf
  split
  · next hq =>
    rw [if_pos hq, if_pos hq] at hmove
    exact hmove
  · next hq =>
    rw [if_neg hq, if_neg hq] at hmove
    exact hmove

/-- What holds of a world, and still does when the knote has gone to the queue, holds after a change
of the knote if it does not depend on what the change writes. -/
theorem touchOld_of {P : World Tid → Prop} {kev : Kevent} (h : P w)
    (henq : ∀ kn', P (w.enqueueIf kev.key kn'))
    (hwrite : ∀ w₁ kn' table, P w₁ → P (((w₁.record (.change kev) table).setKnote kev.key
      (some (touched kev kn'))).setPc t (.touch kev))) : P (w.touchOld t kev kn) := by
  unfold touchOld
  dsimp only
  split_ifs with hforce hput
  · exact hwrite _ _ _ h
  · obtain ⟨hd, hq⟩ : kn.disabled = false ∧ kn.queued = false := by simpa using hput
    have henq := henq { kn with flags := kn.flags ||| evOneshot, active := true }
    rw [enqueueIf, if_pos (by simp [hd, hq])] at henq
    exact hwrite _ _ _ henq
  · exact hwrite _ _ _ h

open Relation in
/-- A change with `EV_FORCEONESHOT` activates the knote, and then grabs it. -/
theorem moves_touchOld {kev : Kevent} (hrole : w.view.role t = .out)
    (hkn : w.knotes kev.key = some kn) (hi : kn.influx = false) :
    ReflTransGen View.Move w.view (w.touchOld t kev kn).view := by
  unfold touchOld
  dsimp only
  split_ifs with hforce hput
  · rw [view_setPc]
    exact .single (.grab t kev.key kn _ hrole hkn hi rfl rfl fun _ => rfl)
  · obtain ⟨hd, hq⟩ : kn.disabled = false ∧ kn.queued = false := by simpa using hput
    have hforced := View.Move.force (v := w.view) kev.key kn
      { kn with flags := kn.flags ||| evOneshot, active := true } hkn rfl rfl rfl
    rw [← view_enqueueIf, enqueueIf, if_pos (by simp [hd, hq])] at hforced
    rw [view_setPc]
    refine (ReflTransGen.single hforced).tail ?_
    refine .grab t kev.key
      { kn with flags := kn.flags ||| evOneshot, active := true, queued := true } _ ?_ ?_ hi
      rfl rfl id
    · rw [knoteEnqueue, view_kqueueWakeup]
      exact hrole
    · rw [knoteEnqueue, view_kqueueWakeup]
      exact Function.update_self ..
  · rw [view_setPc]
    exact .single (.grab t kev.key kn _ hrole hkn hi rfl rfl id)

open Relation in
/-- What a transition does to the view. -/
theorem moves_of_trans (h : Trans w w') : ReflTransGen View.Move w.view w'.view := by
  have hrole {t : Tid} {p : Pc} (hpc : w.pc t = p) : w.view.role t = p.role :=
    congrArg Pc.role hpc
  cases h with
  | scanNone t => exact .refl
  | scanCall t m hpc hm => exact moves_within hpc rfl rfl
  | sleep t m hpc hc => exact moves_within hpc rfl rfl
  | poll t m hpc =>
    have hout : w.view.role t = .out := hpc.elim hrole hrole
    rw [view_scanDone, ← hout, Function.update_eq_self]
  | enter t m hpc hc =>
    rw [view_setPc]
    exact .single (.enter t (hrole hpc))
  | full t c hpc hc =>
    rw [view_scanDone]
    exact .single (.leave t (hrole hpc))
  | atMarker t c rest hpc hc hq => exact .single (move_atMarker (hrole hpc) hq)
  | waitFlux t c e rest hpc hc hq he => rw [view_waitFlux _ (hrole hpc)]
  | takeDisabled t c k kn rest hpc hq hkn hi hd =>
    exact .single (.takeDisabled k kn rest hq hkn hd)
  | takeDrop t c k kn rest hpc hc hq hkn hi =>
    rw [takeDrop, takeLast, view_setPc]
    exact .single (.takeDrop t k kn rest (hrole hpc) hq hkn hi)
  | takeOneshot t c k kn rest r hpc hc hq hkn hi hd ho =>
    rw [takeOneshot, takeLast, view_setPc]
    exact .single (.takeOneshot t k kn rest (hrole hpc) hq hkn hi)
  | takeExam t c k kn rest hpc hc hq hkn hi hd ho =>
    rw [takeExam, view_setPc]
    exact .single (.takeExam t k kn _ rest (hrole hpc) hq hkn hi rfl)
  | examIdle t c k kn hpc hkn hr =>
    rw [examIdle, view_setPc]
    exact .single (.examIdle t k kn (hrole hpc) hkn hr)
  | examClear t c k kn r hpc hkn hf =>
    rw [view_countReport]
    exact .single (.examClear t k kn _ (hrole hpc) hkn rfl hf)
  | examAgain t c k kn r hpc hkn hf =>
    rw [view_countReport]
    exact .single (.examAgain t k kn _ (hrole hpc) hkn rfl)
  | countOneshot t c kev hpc =>
    have hscanning : w.view.role t = .scanning := hrole hpc
    rw [view_countReport, ← hscanning, Function.update_eq_self]
  | knoteDrop t k after kn hpc hkn => exact .single (move_knoteDrop hpc hkn)
  | refusedInval kev hf => exact .refl
  | registerCall t kev hpc hf => exact moves_within hpc rfl rfl
  | attachNew t kev hpc hkn ha =>
    rw [attachNew, view_setPc]
    exact .single (.attach t kev.key _ (hrole hpc) hkn rfl rfl)
  | refusedNoent t kev hpc hkn ha => exact moves_within hpc rfl rfl
  | findknWait t kev kn hpc hkn hi => exact moves_within hpc rfl rfl
  | deleteOld t kev kn hpc hkn hi hd =>
    rw [deleteOld, view_setPc]
    exact .single (.grab t kev.key kn _ (hrole hpc) hkn hi rfl rfl id)
  | touchOld t kev kn hpc hkn hi hd => exact moves_touchOld (hrole hpc) hkn hi
  | settle t kev kn hpc hkn =>
    rw [settleKnote, view_fluxWakeup, view_enqueueIf, view_setPc]
    exact .single (.settle t kev.key kn _ _ (hpc.elim hrole hrole) hkn rfl rfl rfl)
  | closeCall t fd hpc => exact moves_within hpc rfl rfl
  | closeWait t fd f influx kn hpc hkn hi => rw [view_closeWait _ (hrole hpc)]
  | closeDrop t fd f influx kn hpc hkn hi =>
    rw [closeDrop, view_setPc]
    exact .single (.grab t (fd, f) kn _ (hrole hpc) hkn hi rfl rfl id)
  | closeDone t fd influx hpc =>
    rw [view_fluxWakeup]
    exact moves_within hpc rfl rfl
  | setReady k ready h => exact .single (.setReady k ready _ h)
  | activate k kn hkn =>
    rw [knoteActivate, view_enqueueIf]
    exact .single (.activate k kn _ hkn)

omit [DecidableEq Tid] in
theorem inv_init : (init : World Tid).view.Inv where
  flux := ⟨by simp [view, init, Pc.role], by simp [view, init], by simp [view, init, Pc.role]⟩
  queued := by constructor <;> simp [view, init, Pc.role]
  live := fun k kn hkn => by simp [view, init] at hkn
  fair := .nil _ _

/-- The discipline holds in every state that a run reaches. -/
theorem inv_of_reachable (h : Transition.Reachable step init w) : w.view.Inv := by
  refine h.induct (I := fun w => w.view.Inv) inv_init ?_
  intro w w' a hi _ hs
  exact hi.moves (moves_of_trans (trans_of_step hs))

end World

end VosStack.Epoll.Concurrent
