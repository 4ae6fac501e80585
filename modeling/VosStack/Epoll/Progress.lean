import VosStack.Epoll.Wakeups

/-!
# Whoever waits can be woken by one thread

`Announced` says that a thread is obliged to announce whenever another one waits for the flux.
Here that thread is let run alone, and we count the entries ahead of its marker: each turn of its
scan announces or takes one of them away, and a knote that goes back to the tail goes behind the
marker. So its steps, which are all enabled, come to the announcement. All this is about an
`msleep` that sleeps and releases the lock, which the stub in this tree does not.

In particular the threads that use a kqueue never all wait for each other, a scan never finds the
queue empty, and no thread ever looks at a knote that has been dropped.
-/

namespace VosStack.Epoll.Concurrent

namespace World

open Transition

variable {Tid : Type*} [DecidableEq Tid] {w w' : World Tid} {t u : Tid}

/-- The thread that takes a step. -/
def Action.thread : Action Tid → Option Tid
  | .kqueueScan t _ => some t
  | .retry t _ => some t
  | .timeout t => some t
  | .loopTurn t _ => some t
  | .exam t _ => some t
  | .countOneshot t => some t
  | .knoteDrop t => some t
  | .kqueueRegister t _ => some t
  | .findkn t => some t
  | .settle t => some t
  | .knoteFdclose t _ => some t
  | .closeTurn t _ => some t
  | .closeDone t => some t
  | .signal _ _ => none

/-- Steps of `u` alone lead to a state in which `t` does not wait. -/
def Frees (w : World Tid) (u t : Tid) : Prop :=
  ∃ as w', (∀ a ∈ as, Action.thread a = some u) ∧ exec step w as = some w' ∧
    (w'.pc t).waits = false

theorem frees_of_awake (h : (w.pc t).waits = false) : w.Frees u t :=
  ⟨[], w, by simp, rfl, h⟩

theorem frees_of_step {a : Action Tid} (ha : Action.thread a = some u)
    (hs : w.step a = some w') (h : w'.Frees u t) : w.Frees u t := by
  obtain ⟨as, w'', has, hex, ht⟩ := h
  refine ⟨a :: as, w'', ?_, ?_, ht⟩
  · simpa [ha] using has
  · simpa [exec, hs] using hex

omit [DecidableEq Tid] in
theorem waits_fluxWakeup (h : Flagged w) (t : Tid) : (w.fluxWakeup.pc t).waits = false := by
  unfold fluxWakeup
  split
  · exact Pc.waits_woken _
  · next hflag => exact Bool.eq_false_iff.mpr fun ht => hflag (h t ht)

/-- A step that announces wakes whoever waits. -/
theorem frees_of_fluxWakeup {a : Action Tid} (ha : Action.thread a = some u)
    (hs : w.step a = some w'.fluxWakeup) (hf : Flagged w') : w.Frees u t :=
  frees_of_step ha hs (frees_of_awake (waits_fluxWakeup hf t))

/-- A thread that drops a knote announces when it has done so. -/
theorem frees_drop (h : Reachable step init w) {k : Key} {after : After}
    (hpc : w.pc u = .drop k after) : w.Frees u t := by
  have hheld : (w.view.role u).held = some k := by simp [view, hpc, Pc.role_drop]
  obtain ⟨kn, hkn, -⟩ := (inv_of_reachable h).flux.held u k hheld
  have hkn : w.knotes k = some kn := hkn
  have hs : w.step (.knoteDrop u) =
      some (((w.dequeueIf k kn).setKnote k none).setPc u after.next).fluxWakeup := by
    simp [step, knoteDrop, hpc, hkn]
  refine frees_of_fluxWakeup rfl hs (Flagged.setPc ?_ ?_)
  · have hf := (announced_of_reachable h).flagged
    unfold dequeueIf
    split <;> exact hf.of_eq rfl rfl
  · rcases after with ⟨c, _ | kev⟩ | _ | fd <;> rfl

/-- A thread that changes a knote announces when it has done so. -/
theorem frees_settle (h : Reachable step init w) {kev : Kevent}
    (hpc : w.pc u = .attach kev ∨ w.pc u = .touch kev) : w.Frees u t := by
  have hheld : (w.view.role u).held = some kev.key := by
    rcases hpc with hpc | hpc <;> simp [view, hpc, Pc.role]
  obtain ⟨kn, hkn, -⟩ := (inv_of_reachable h).flux.held u _ hheld
  have hkn : w.knotes kev.key = some kn := hkn
  have hs : w.step (.settle u) = some (w.settleKnote u kev kn) := by
    rcases hpc with hpc | hpc <;> simp [step, settle, hpc, hkn]
  refine frees_of_fluxWakeup rfl hs (Flagged.enqueueIf (Flagged.setPc ?_ rfl) _ _)
  exact (announced_of_reachable h).flagged.of_eq rfl rfl

/-! ### A scan -/

/-- The entries ahead of the marker of `u`. -/
def ahead (w : World Tid) (u : Tid) : ℕ := w.queue.idxOf (.marker u)

/-- The scan is awake and has to announce. -/
def Pressed (w : World Tid) (u : Tid) : Prop :=
  ∃ c, w.pc u = .loop c ∧ c.influx = true

theorem mem_queue_of_scans (h : Reachable step init w) (hu : (w.pc u).role.scans = true) :
    .marker u ∈ w.queue :=
  ((inv_of_reachable h).queued.marker u).mpr hu

/-- A report is counted: the scan announces, or has to announce as before. -/
theorem frees_countReport {a : Action Tid} {w₁ : World Tid} {c : ScanCall} {kev : Kevent}
    {n : ℕ} (hw : Reachable step init w) (ha : Action.thread a = some u)
    (hs : w.step a = some (w₁.countReport u c kev)) (hf : Flagged w₁) (hc : c.influx = true)
    (hn : w₁.ahead u = n)
    (ih : ∀ w', Reachable step init w' → w'.Pressed u → w'.ahead u = n → w'.Frees u t) :
    w.Frees u t := by
  have hr := hw.tail trivial hs
  unfold countReport at hs hr
  dsimp only at hs hr
  split at hs
  · exact frees_of_fluxWakeup ha hs (hf.setPc rfl)
  · next hmod =>
    rw [if_neg hmod] at hr
    refine frees_of_step ha hs (ih _ hr ?_ hn)
    exact ⟨_, Function.update_self .., hc⟩

/-- The scan examines a knote. -/
theorem frees_exam {n : ℕ} (h : Reachable step init w) {k : Key} {c : ScanCall} (r : Reading)
    (hpc : w.pc u = .exam k c) (hn : w.ahead u = n)
    (ih : ∀ w', Reachable step init w' → w'.Pressed u → w'.ahead u = n → w'.Frees u t) :
    w.Frees u t := by
  have hheld : (w.view.role u).held = some k := by simp [view, hpc, Pc.role]
  obtain ⟨kn, hkn, -⟩ := (inv_of_reachable h).flux.held u k hheld
  have hkn : w.knotes k = some kn := hkn
  have hf := (announced_of_reachable h).flagged
  by_cases hr : w.ready k = true
  · by_cases hcl : kn.flags.has (evClear ||| evDispatch) = true
    · have hs : w.step (.exam u r) = some ((w.examClear k kn r).countReport u
          { c with influx := true } (kn.report k r)) := by
        simp [step, exam, hpc, hkn, hr, hcl]
      exact frees_countReport h rfl hs (hf.of_eq rfl rfl) rfl hn ih
    · have hs : w.step (.exam u r) = some ((w.examAgain k kn r).countReport u
          { c with influx := true } (kn.report k r)) := by
        simp [step, exam, hpc, hkn, hr, hcl]
      refine frees_countReport h rfl hs (hf.of_eq rfl rfl) rfl ?_ ih
      have hmem := mem_queue_of_scans h (u := u) (by simp [hpc, Pc.role])
      exact (List.idxOf_append_of_mem hmem).trans hn
  · have hs : w.step (.exam u r) = some (w.examIdle u c k kn) := by
      simp [step, exam, hpc, hkn, hr]
    refine frees_of_step rfl hs (ih _ (h.tail trivial hs) ?_ hn)
    exact ⟨_, Function.update_self .., rfl⟩

/-- A scan that has to announce does so before it has taken all the entries ahead of its
marker. -/
theorem frees_pressed (r : Reading) (n : ℕ) (w : World Tid) (h : Reachable step init w)
    (hp : w.Pressed u) (hn : w.ahead u = n) : w.Frees u t := by
  induction n using Nat.strong_induction_on generalizing w with
  | _ n ih =>
  obtain ⟨c, hpc, hc⟩ := hp
  have hf := (announced_of_reachable h).flagged
  by_cases hfull : c.out.length = c.maxevents
  · have hs : w.step (.loopTurn u r) = some ({ w with
        queue := w.queue.erase (.marker u) }.scanDone u c.maxevents c.out) := by
      simp [step, loopTurn, hpc, hfull]
    exact frees_of_fluxWakeup rfl hs (.setPc (hf.of_eq rfl rfl) rfl)
  have hmem := mem_queue_of_scans h (u := u) (by simp [hpc, Pc.role])
  obtain ⟨e, rest, hq⟩ := List.exists_cons_of_ne_nil (List.ne_nil_of_mem hmem)
  -- before it waits the scan announces
  have hblocked (hs : w.step (.loopTurn u r) = some (w.waitFlux u c)) : w.Frees u t := by
    by_cases htu : t = u
    · exact frees_of_awake (by simp [htu, hpc, Pc.waits])
    · refine frees_of_step rfl hs (frees_of_awake ?_)
      simpa [waitFlux, hc, setPc, Function.update_of_ne htu] using waits_fluxWakeup hf t
  cases e with
  | marker v =>
    by_cases hv : v = u
    · have hs : w.step (.loopTurn u r) = some (w.atMarker u c rest) := by
        simp [step, loopTurn, hpc, hfull, hq, hv]
      unfold atMarker at hs
      split at hs
      · exact frees_of_fluxWakeup rfl hs (.setPc (hf.of_eq rfl rfl) rfl)
      · exact frees_of_fluxWakeup rfl hs (.setPc (hf.of_eq rfl rfl) rfl)
    · exact hblocked (by simp [step, loopTurn, hpc, hfull, hq, hv])
  | knote k =>
    have hk : .knote k ∈ w.view.queue := by simp [view, hq]
    obtain ⟨-, kn, hkn, -⟩ := ((inv_of_reachable h).queued.knote k).mp hk
    have hkn : w.knotes k = some kn := hkn
    have hrest : rest.idxOf (.marker u) < n := by
      rw [← hn, ahead, hq, List.idxOf_cons_ne rest (by simp)]
      exact Nat.lt_succ_self _
    by_cases hi : kn.influx = true
    · exact hblocked (by simp [step, loopTurn, hpc, hfull, hq, hkn, hi])
    by_cases hd : kn.disabled = true
    · have hs : w.step (.loopTurn u r) = some (w.takeDisabled k kn rest) := by
        simp [step, loopTurn, hpc, hfull, hq, hkn, hi, hd]
      exact frees_of_step rfl hs (ih _ hrest _ (h.tail trivial hs) ⟨c, hpc, hc⟩ rfl)
    by_cases hdrop : kn.flags.has evDrop = true
    · have hs : w.step (.loopTurn u r) = some (w.takeDrop u c k kn rest) := by
        simp [step, loopTurn, hpc, hfull, hq, hkn, hi, hd, hdrop]
      exact frees_of_step rfl hs (frees_drop (h.tail trivial hs) (Function.update_self ..))
    by_cases ho : kn.flags.has evOneshot = true
    · have hs : w.step (.loopTurn u r) = some (w.takeOneshot u c k kn rest r) := by
        simp [step, loopTurn, hpc, hfull, hq, hkn, hi, hd, hdrop, ho]
      exact frees_of_step rfl hs (frees_drop (h.tail trivial hs) (Function.update_self ..))
    have hs : w.step (.loopTurn u r) = some (w.takeExam u c k kn rest) := by
      simp [step, loopTurn, hpc, hfull, hq, hkn, hi, hd, hdrop, ho]
    refine frees_of_step rfl hs ?_
    exact frees_exam (h.tail trivial hs) r (Function.update_self ..) rfl
      fun w' hw' hp' hn' => ih _ hrest w' hw' hp' hn'

/-- A scan whose marker is at the head meets it, and announces. -/
theorem frees_atHead (r : Reading) (h : Reachable step init w) {c : ScanCall}
    (hpc : w.pc u = .loop c) (hq : w.queue.head? = some (.marker u)) : w.Frees u t := by
  have hf := (announced_of_reachable h).flagged
  obtain ⟨rest, hq⟩ := List.head?_eq_some_iff.mp hq
  by_cases hfull : c.out.length = c.maxevents
  · have hs : w.step (.loopTurn u r) = some ({ w with
        queue := w.queue.erase (.marker u) }.scanDone u c.maxevents c.out) := by
      simp [step, loopTurn, hpc, hfull]
    exact frees_of_fluxWakeup rfl hs (.setPc (hf.of_eq rfl rfl) rfl)
  · have hs : w.step (.loopTurn u r) = some (w.atMarker u c rest) := by
      simp [step, loopTurn, hpc, hfull, hq]
    unfold atMarker at hs
    split at hs
    · exact frees_of_fluxWakeup rfl hs (.setPc (hf.of_eq rfl rfl) rfl)
    · exact frees_of_fluxWakeup rfl hs (.setPc (hf.of_eq rfl rfl) rfl)

/-- Whoever is obliged can free whoever waits. -/
theorem frees_obliged (r : Reading) (h : Reachable step init w) (ho : w.Obliged u) :
    w.Frees u t := by
  have hf := (announced_of_reachable h).flagged
  cases hpc : w.pc u with
  | loop c =>
    rcases ho with ho | ⟨c', hc', ho⟩
    · simp [hpc, Pc.role] at ho
    · obtain rfl : c = c' := by simpa [hpc, Pc.running] using hc'
      rcases ho with ho | ho
      · exact frees_pressed r _ w h ⟨c, hpc, ho⟩ rfl
      · exact frees_atHead r h hpc ho
  | oneshot c kev =>
    rcases ho with ho | ⟨c', hc', ho⟩
    · simp [hpc, Pc.role] at ho
    · obtain rfl : c = c' := by simpa [hpc, Pc.running] using hc'
      have hs : w.step (.countOneshot u) = some (w.countReport u c kev) := by
        simp [step, countOneshot, hpc]
      have hr := h.tail trivial hs
      unfold countReport at hs hr
      dsimp only at hs hr
      split at hs
      · exact frees_of_fluxWakeup rfl hs (hf.setPc rfl)
      · next hmod =>
        rw [if_neg hmod] at hr
        refine frees_of_step rfl hs ?_
        rcases ho with ho | ho
        · exact frees_pressed r _ _ hr ⟨_, Function.update_self .., ho⟩ rfl
        · exact frees_atHead r hr (Function.update_self ..) ho
  | exam k c =>
    exact frees_exam h r hpc rfl fun w' hw' hp' hn' => frees_pressed r _ w' hw' hp' hn'
  | drop k after => exact frees_drop h hpc
  | attach kev => exact frees_settle h (.inl hpc)
  | touch kev => exact frees_settle h (.inr hpc)
  | loopWait c => simp [Obliged, hpc, Pc.role, Pc.running] at ho
  | _ => exact absurd ho (not_obliged_of_role (by simp [hpc, Pc.role]))

/-- **Nobody waits in vain.** Whenever a thread waits for the flux to change, another thread can
wake it by steps of its own. -/
theorem exists_frees_of_waits (h : Reachable step init w) (ht : (w.pc t).waits = true) :
    ∃ u ≠ t, w.Frees u t := by
  obtain ⟨u, hu⟩ := (announced_of_reachable h).obliged t ht
  refine ⟨u, ?_, frees_obliged ⟨0, 0, 0⟩ h hu⟩
  rintro rfl
  rcases hu with hu | ⟨c, hc, -⟩
  · cases hpc : w.pc u <;> simp [hpc, Pc.waits, Pc.role] at ht hu
  · cases hpc : w.pc u <;> simp [hpc, Pc.waits, Pc.running] at ht hc

/-- A deletion waits for the addition of the same knote. -/
theorem exists_frees_of_waits_delete :
    ∃ w : World (Fin 2), Reachable step init w ∧ (w.pc 1).waits = true ∧
      ∃ u ≠ 1, w.Frees u 1 := by
  have hrun : Reachable step (init : World (Fin 2)) _ := reachable_of_exec
    [.kqueueRegister 0 ⟨3, .read, evAdd, 0, 0, 7⟩, .findkn 0,
      .kqueueRegister 1 ⟨3, .read, evDelete, 0, 0, 0⟩, .findkn 1] rfl
  exact ⟨_, hrun, rfl, exists_frees_of_waits hrun rfl⟩

end World

end VosStack.Epoll.Concurrent
