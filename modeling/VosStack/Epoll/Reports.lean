import VosStack.Epoll.Upkeep

/-!
# What the calls of `kqueue_scan` return

While an entry waits in the queue no knote is reported twice, by whatever threads. The marker of
a scan is such an entry, and waits as long as the scan goes on. So what one call returns, be it
in several rounds of copying out and with other scans and changes in between, has no two reports
of the same descriptor and filter, and at most as many reports as were asked for.

`Told` is the invariant: the reports that a scan has gathered are, in order, among those made
since its marker entered the queue.
-/

namespace VosStack.Epoll.Concurrent

@[simp]
theorem Knote.key_report (kn : Knote) (k : Key) (r : Reading) : (kn.report k r).key = k := rfl

/-- The reports that a scan has gathered. -/
def Pc.reports : Pc → List Kevent
  | .loop c => c.out
  | .loopWait c => c.out
  | .exam _ c => c.out
  | .oneshot c kev => c.out ++ [kev]
  | .drop _ (.scan c kev) => c.out ++ kev.toList
  | _ => []

/-- A scan has gathered no more reports than it may, and fewer while it works on a knote. A
change that is on its way does not enable and disable at once. -/
def Pc.Within : Pc → Prop
  | .loop c => c.out.length ≤ c.maxevents
  | .loopWait c => c.out.length ≤ c.maxevents
  | .exam _ c => c.out.length < c.maxevents
  | .oneshot c _ => c.out.length < c.maxevents
  | .drop _ (.scan c _) => c.out.length < c.maxevents
  | .findkn kev => ¬ (kev.flags.has evEnable ∧ kev.flags.has evDisable)
  | .findknWait kev => ¬ (kev.flags.has evEnable ∧ kev.flags.has evDisable)
  | _ => True

@[simp]
theorem Pc.reports_woken (p : Pc) : p.woken.reports = p.reports := by
  cases p <;> rfl

theorem Pc.Within.woken {p : Pc} (h : p.Within) : p.woken.Within := by
  cases p <;> exact h

/-- After the drop a scan has the reports that it had in it. -/
theorem After.reports_next (k : Key) (after : After) (hs : after.next.role.scans = true) :
    after.next.reports = (Pc.drop k after).reports ∧ after.scans = true := by
  rcases after with ⟨c, _ | kev⟩ | _ | fd
  · exact ⟨(List.append_nil _).symm, rfl⟩
  · exact ⟨rfl, rfl⟩
  · exact absurd hs Bool.false_ne_true
  · exact absurd hs Bool.false_ne_true

theorem After.within_next {k : Key} {after : After} (h : (Pc.drop k after).Within) :
    after.next.Within := by
  rcases after with ⟨c, _ | kev⟩ | _ | fd
  · exact Nat.le_of_lt h
  · exact h
  · trivial
  · trivial

namespace World

open Transition

variable {Tid : Type*} [DecidableEq Tid] {w w' : World Tid} {t : Tid}

/-- The entries that stand for the reports. -/
def entries (Tid : Type*) (kevs : List Kevent) : List (Entry Tid) :=
  kevs.map fun kev => .knote kev.key

/-- A call has returned distinct reports, and not too many. -/
def Proper (x : Tid × ℕ × List Kevent) : Prop :=
  (x.2.2.map Kevent.key).Nodup ∧ x.2.2.length ≤ x.2.1

structure Told (w : World Tid) : Prop where
  since : ∀ t, (w.pc t).role.scans = true →
    (entries Tid (w.pc t).reports).Sublist (w.since (.marker t))
  within : ∀ t, (w.pc t).Within
  returned : ∀ x ∈ w.returned, Proper x

omit [DecidableEq Tid] in
/-- Woken threads have the same reports. -/
theorem Told.wakeup (h : Told w) : Told w.wakeup where
  since := fun t ht => by simpa [World.wakeup] using h.since t (by simpa [World.wakeup] using ht)
  within := fun t => (h.within t).woken
  returned := h.returned

omit [DecidableEq Tid] in
theorem Told.fluxWakeup (h : Told w) : Told w.fluxWakeup := by
  unfold World.fluxWakeup
  split
  · exact ⟨h.wakeup.since, h.wakeup.within, h.wakeup.returned⟩
  · exact h

omit [DecidableEq Tid] in
/-- Other fields change. -/
theorem Told.of_eq (h : Told w) (hpc : w'.pc = w.pc)
    (hs : ∀ t, (w.since (.marker t)).Sublist (w'.since (.marker t)))
    (hr : w'.returned = w.returned) : Told w' where
  since := fun t ht => by
    rw [hpc] at ht ⊢
    exact (h.since t ht).trans (hs t)
  within := hpc ▸ h.within
  returned := hr ▸ h.returned

/-- The thread `t` moves. -/
theorem Told.setPc {p : Pc} (h : Told w)
    (hs : p.role.scans = true → (entries Tid p.reports).Sublist (w.since (.marker t)))
    (hw : p.Within) : Told (w.setPc t p) where
  since := fun u hu => by
    by_cases hut : u = t
    · subst hut
      simp only [World.setPc, Function.update_self] at hu ⊢
      exact hs hu
    · simp only [World.setPc, Function.update_of_ne hut] at hu ⊢
      exact h.since u hu
  within := fun u => by
    by_cases hut : u = t
    · subst hut
      simpa [World.setPc] using hw
    · simpa [World.setPc, Function.update_of_ne hut] using h.within u
  returned := h.returned

/-- The thread `t` moves outside of a scan. -/
theorem Told.setOut {p : Pc} (h : Told w) (hr : p.role.scans = false) (hw : p.Within) :
    Told (w.setPc t p) :=
  h.setPc (fun hs => absurd (hr.symm.trans hs) Bool.false_ne_true) hw

theorem Told.enqueueIf (h : Told w) (k : Key) (kn : LiveKnote) : Told (w.enqueueIf k kn) := by
  have hsince (u : Tid) : (w.since (.marker u)).Sublist
      (Function.update w.since (.knote k) [] (.marker u)) := by
    rw [Function.update_of_ne (by simp)]
  unfold World.enqueueIf
  split
  · unfold World.knoteEnqueue World.kqueueWakeup
    have hin : Told { (w.insertTail (.knote k)).setKnote k (some { kn with queued := true }) with
        count := w.count + 1 } := h.of_eq rfl hsince rfl
    split
    · exact ⟨hin.wakeup.since, hin.wakeup.within, hin.wakeup.returned⟩
    · exact hin
  · exact h.of_eq rfl (fun _ => .refl _) rfl

/-- The end of a scan. -/
theorem Told.scanDone {m : ℕ} {out : List Kevent} (h : Told w) (hp : Proper (t, m, out)) :
    Told (w.scanDone t m out) := by
  have hret : Told { w with returned := w.returned ++ [(t, m, out)] } := by
    refine ⟨h.since, h.within, fun x hx => ?_⟩
    rcases List.mem_append.mp hx with hx | hx
    · exact h.returned x hx
    · rw [List.mem_singleton.mp hx]
      exact hp
  exact .fluxWakeup (.setOut hret rfl trivial)

omit [DecidableEq Tid] in
theorem entries_snoc (kevs : List Kevent) (kev : Kevent) :
    entries Tid (kevs ++ [kev]) = entries Tid kevs ++ [.knote kev.key] := by
  simp [entries]

omit [DecidableEq Tid] in
theorem nodup_of_entries {kevs : List Kevent} (h : (entries Tid kevs).Nodup) :
    (kevs.map Kevent.key).Nodup := by
  have hmap : entries Tid kevs = (kevs.map Kevent.key).map Entry.knote := by
    simp [entries, Function.comp_def]
  exact List.Nodup.of_map _ (hmap ▸ h)

omit [DecidableEq Tid] in
/-- What a scan has gathered is distinct, as its marker is in the queue. -/
theorem nodup_reports (hi : w.view.Inv) (h : Told w) (ht : (w.pc t).role.scans = true) :
    ((w.pc t).reports.map Kevent.key).Nodup :=
  nodup_of_entries ((hi.fair.once _ ((hi.queued.marker t).mpr ht)).sublist (h.since t ht))

/-- A report is counted. -/
theorem Told.countReport {c : ScanCall} {kev : Kevent} (h : Told w)
    (hs : (entries Tid (c.out ++ [kev])).Sublist (w.since (.marker t)))
    (hw : c.out.length < c.maxevents) : Told (w.countReport t c kev) := by
  have hlen : (c.out ++ [kev]).length ≤ c.maxevents := by
    simpa using Nat.succ_le_of_lt hw
  unfold World.countReport
  dsimp only
  split
  · exact .fluxWakeup (.setPc h (fun _ => hs) hlen)
  · exact .setPc h (fun _ => hs) hlen

/-! ### One lemma per transition -/

section transitions

variable {c : ScanCall} {k : Key} {kn : LiveKnote} {rest : List (Entry Tid)}

omit [DecidableEq Tid] in
/-- What a scan at the head of its loop has gathered. -/
theorem Told.loop (h : Told w) (hpc : w.pc t = .loop c) (hc : c.out.length ≠ c.maxevents) :
    (entries Tid c.out).Sublist (w.since (.marker t)) ∧ c.out.length < c.maxevents := by
  have hs := h.since t (by simp [hpc, Pc.role])
  have hw := h.within t
  rw [hpc] at hs hw
  exact ⟨hs, Nat.lt_of_le_of_ne hw hc⟩

omit [DecidableEq Tid] in
/-- What a scan has gathered when it examines a knote. -/
theorem Told.exam (h : Told w) (hpc : w.pc t = .exam k c) :
    (entries Tid c.out).Sublist (w.since (.marker t)) ∧ c.out.length < c.maxevents := by
  have hs := h.since t (by simp [hpc, Pc.role])
  have hw := h.within t
  rw [hpc] at hs hw
  exact ⟨hs, hw⟩

omit [DecidableEq Tid] in
/-- A report that is made now is the last of those made since. -/
theorem entries_report {kevs : List Kevent} (kn : LiveKnote) (k : Key) (r : Reading)
    (h : (entries Tid kevs).Sublist (w.since (.marker t))) :
    (entries Tid (kevs ++ [kn.report k r])).Sublist (w.since (.marker t) ++ [.knote k]) := by
  rw [entries_snoc]
  exact h.append (.refl _)

omit [DecidableEq Tid] in
theorem Told.scanNone (h : Told w) (t : Tid) :
    Told { w with returned := w.returned ++ [(t, 0, [])] } := by
  refine ⟨h.since, h.within, fun x hx => ?_⟩
  rcases List.mem_append.mp hx with hx | hx
  · exact h.returned x hx
  · rw [List.mem_singleton.mp hx]
    exact ⟨List.nodup_nil, le_rfl⟩

theorem Told.enter (h : Told w) (t : Tid) (m : ℕ) :
    Told ((w.insertTail (.marker t)).setPc t (.loop ⟨m, [], false⟩)) := by
  refine ⟨fun u hu => ?_, fun u => ?_, h.returned⟩
  · by_cases hut : u = t
    · simp [hut, World.setPc, Pc.reports, entries]
    · simp only [World.setPc, insertTail, Function.update_of_ne hut] at hu ⊢
      rw [Function.update_of_ne (by simpa using hut)]
      exact h.since u hu
  · by_cases hut : u = t
    · simp [hut, World.setPc, Pc.Within]
    · simpa [World.setPc, insertTail, Function.update_of_ne hut] using h.within u

/-- The scan takes its marker out and returns what it has. -/
theorem Told.leave (h : Told w) (hi : w.view.Inv) (hpc : w.pc t = .loop c)
    (queue : List (Entry Tid)) : Told ({ w with queue }.scanDone t c.maxevents c.out) := by
  have hn := nodup_reports (t := t) hi h (by simp [hpc, Pc.role])
  refine Told.scanDone (h.of_eq rfl (fun _ => .refl _) rfl) ⟨?_, ?_⟩
  · simpa [hpc, Pc.reports] using hn
  · simpa [hpc, Pc.Within] using h.within t

theorem Told.atMarker (h : Told w) (hi : w.view.Inv) (hpc : w.pc t = .loop c)
    (rest : List (Entry Tid)) : Told (w.atMarker t c rest) := by
  unfold World.atMarker
  split
  · exact .fluxWakeup (.setOut (h.of_eq rfl (fun _ => .refl _) rfl) rfl trivial)
  · exact h.leave hi hpc rest

theorem Told.waitFlux (h : Told w) (hpc : w.pc t = .loop c) : Told (w.waitFlux t c) := by
  have hbase : Told (if c.influx then w.fluxWakeup else w) ∧
      (if c.influx then w.fluxWakeup else w).since = w.since := by
    split
    · exact ⟨h.fluxWakeup, congrArg View.since (view_fluxWakeup w)⟩
    · exact ⟨h, rfl⟩
  refine .setPc (hbase.1.of_eq rfl (fun _ => .refl _) rfl) (fun _ => ?_) ?_
  · rw [hbase.2]
    simpa [hpc, Pc.reports] using h.since t (by simp [hpc, Pc.role])
  · simpa [hpc, Pc.Within] using h.within t

theorem Told.takeDrop (h : Told w) (hpc : w.pc t = .loop c)
    (hc : c.out.length ≠ c.maxevents) : Told (w.takeDrop t c k kn rest) := by
  obtain ⟨hs, hlt⟩ := h.loop hpc hc
  refine .setPc (h.of_eq rfl (fun _ => .refl _) rfl) (fun _ => ?_) hlt
  rw [Pc.reports, Option.toList_none, List.append_nil]
  exact hs

theorem Told.takeOneshot (h : Told w) (hpc : w.pc t = .loop c)
    (hc : c.out.length ≠ c.maxevents) (r : Reading) : Told (w.takeOneshot t c k kn rest r) := by
  obtain ⟨hs, hlt⟩ := h.loop hpc hc
  refine .setPc (h.of_eq rfl (fun _ => List.sublist_append_left ..) rfl) (fun _ => ?_) hlt
  exact entries_report kn k r hs

theorem Told.takeExam (h : Told w) (hpc : w.pc t = .loop c)
    (hc : c.out.length ≠ c.maxevents) : Told (w.takeExam t c k kn rest) := by
  obtain ⟨hs, hlt⟩ := h.loop hpc hc
  exact .setPc (h.of_eq rfl (fun _ => .refl _) rfl) (fun _ => hs) hlt

theorem Told.examIdle (h : Told w) (hpc : w.pc t = .exam k c) : Told (w.examIdle t c k kn) := by
  obtain ⟨hs, hlt⟩ := h.exam hpc
  exact .setPc (h.of_eq rfl (fun _ => .refl _) rfl) (fun _ => hs) hlt.le

theorem Told.examClear (h : Told w) (hpc : w.pc t = .exam k c) (r : Reading) :
    Told ((w.examClear k kn r).countReport t { c with influx := true } (kn.report k r)) := by
  obtain ⟨hs, hlt⟩ := h.exam hpc
  refine .countReport (h.of_eq rfl (fun _ => List.sublist_append_left ..) rfl) ?_ hlt
  exact entries_report kn k r hs

theorem Told.examAgain (h : Told w) (hpc : w.pc t = .exam k c) (r : Reading) :
    Told ((w.examAgain k kn r).countReport t { c with influx := true } (kn.report k r)) := by
  obtain ⟨hs, hlt⟩ := h.exam hpc
  have hsince (u : Tid) : (w.examAgain k kn r).since (.marker u) =
      w.since (.marker u) ++ [.knote k] := by
    simp [World.examAgain, insertTail, served, record, setKnote]
  refine .countReport (h.of_eq rfl (fun u => ?_) rfl) ?_ hlt
  · rw [hsince]
    exact List.sublist_append_left ..
  · rw [hsince]
    exact entries_report kn k r hs

theorem Told.countOneshot {kev : Kevent} (h : Told w) (hpc : w.pc t = .oneshot c kev) :
    Told (w.countReport t c kev) := by
  refine h.countReport ?_ (by simpa [hpc, Pc.Within] using h.within t)
  simpa [hpc, Pc.reports] using h.since t (by simp [hpc, Pc.role])

theorem Told.knoteDrop {after : After} (h : Told w) (hpc : w.pc t = .drop k after) :
    Told (((w.dequeueIf k kn).setKnote k none).setPc t after.next).fluxWakeup := by
  have hbase : Told (w.dequeueIf k kn) ∧ (w.dequeueIf k kn).since = w.since := by
    unfold dequeueIf
    split
    · exact ⟨h.of_eq rfl (fun _ => .refl _) rfl, rfl⟩
    · exact ⟨h, rfl⟩
  refine .fluxWakeup (.setPc (hbase.1.of_eq rfl (fun _ => .refl _) rfl) (fun hsc => ?_) ?_)
  · obtain ⟨hreports, hscans⟩ := after.reports_next k hsc
    rw [show ((w.dequeueIf k kn).setKnote k none).since = w.since from hbase.2, hreports, ← hpc]
    exact h.since t (by simp [hpc, Pc.role_drop, hscans])
  · exact After.within_next (hpc ▸ h.within t)

theorem Told.findknWait {kev : Kevent} (h : Told w) (hpc : w.pc t = .findkn kev) :
    Told ({ w with fluxFlag := true }.setPc t (.findknWait kev)) := by
  have hw := h.within t
  rw [hpc] at hw
  exact Told.setOut (h.of_eq rfl (fun _ => .refl _) rfl) rfl hw

theorem Told.touchOld (h : Told w) (kev : Kevent) : Told (w.touchOld t kev kn) := by
  refine touchOld_of h (h.enqueueIf kev.key) fun w₁ kn' table h₁ => ?_
  exact .setOut (h₁.of_eq rfl (fun _ => .refl _) rfl) rfl trivial

theorem Told.settle (h : Told w) (kev : Kevent) : Told (w.settleKnote t kev kn) := by
  refine Told.fluxWakeup (Told.enqueueIf ?_ _ _)
  exact .setOut (h.of_eq rfl (fun _ => .refl _) rfl) rfl trivial

theorem Told.closeWait (h : Told w) (fd : ℕ) (influx : Bool) : Told (w.closeWait t fd influx) := by
  have hbase : Told (if influx then w.wakeup else w) := by
    split
    · exact h.wakeup
    · exact h
  exact .setOut (hbase.of_eq rfl (fun _ => .refl _) rfl) rfl trivial

end transitions

theorem told_trans (ht : Trans w w') (hi : w.view.Inv) (h : Told w) : Told w' := by
  -- many transitions change only fields that are not in the reports
  have hsame {w₁ : World Tid} (hpc : w₁.pc = w.pc) (hs : w₁.since = w.since)
      (hr : w₁.returned = w.returned) : Told w₁ := h.of_eq hpc (fun _ => hs ▸ .refl _) hr
  cases ht with
  | scanNone t => exact h.scanNone t
  | scanCall t m hpc hm => exact h.setOut rfl trivial
  | sleep t m hpc hc => exact .setOut (hsame rfl rfl rfl) rfl trivial
  | poll t m hpc => exact h.scanDone ⟨List.nodup_nil, Nat.zero_le m⟩
  | enter t m hpc hc => exact h.enter t m
  | full t c hpc hc => exact h.leave hi hpc _
  | atMarker t c rest hpc hc hq => exact h.atMarker hi hpc rest
  | waitFlux t c e rest hpc hc hq he => exact h.waitFlux hpc
  | takeDisabled t c k kn rest hpc hq hkn hin hd => exact hsame rfl rfl rfl
  | takeDrop t c k kn rest hpc hc hq hkn hin => exact h.takeDrop hpc hc
  | takeOneshot t c k kn rest r hpc hc hq hkn hin hd ho => exact h.takeOneshot hpc hc r
  | takeExam t c k kn rest hpc hc hq hkn hin hd ho => exact h.takeExam hpc hc
  | examIdle t c k kn hpc hkn hrd => exact h.examIdle hpc
  | examClear t c k kn r hpc hkn hf => exact h.examClear hpc r
  | examAgain t c k kn r hpc hkn hf => exact h.examAgain hpc r
  | countOneshot t c kev hpc => exact h.countOneshot hpc
  | knoteDrop t k after kn hpc hkn => exact h.knoteDrop hpc
  | refusedInval kev hf => exact hsame rfl rfl rfl
  | registerCall t kev hpc hf => exact h.setOut rfl hf
  | attachNew t kev hpc hkn ha => exact .setOut (hsame rfl rfl rfl) rfl trivial
  | refusedNoent t kev hpc hkn ha => exact .setOut (hsame rfl rfl rfl) rfl trivial
  | findknWait t kev kn hpc hkn hin => exact h.findknWait hpc
  | deleteOld t kev kn hpc hkn hin hd => exact .setOut (hsame rfl rfl rfl) rfl trivial
  | touchOld t kev kn hpc hkn hin hd => exact h.touchOld kev
  | settle t kev kn hpc hkn => exact h.settle kev
  | closeCall t fd hpc => exact h.setOut rfl trivial
  | closeWait t fd f influx kn hpc hkn hin => exact h.closeWait fd influx
  | closeDrop t fd f influx kn hpc hkn hin => exact .setOut (hsame rfl rfl rfl) rfl trivial
  | closeDone t fd influx hpc => exact .fluxWakeup (h.setOut rfl trivial)
  | setReady k ready hr => exact hsame rfl rfl rfl
  | activate k kn hkn =>
    have hready : Told (w.setReady k true) := hsame rfl rfl rfl
    exact hready.enqueueIf k _

theorem told_of_reachable (h : Reachable step init w) : Told w := by
  refine h.induct_of (I := Told) (J := fun w => w.view.Inv) (fun w hw => inv_of_reachable hw)
    ⟨?_, ?_, ?_⟩ ?_
  · exact fun t ht => by simp [init, Pc.role] at ht
  · exact fun t => by simp [init, Pc.Within]
  · exact fun x hx => by simp [init] at hx
  · intro w w' a hi ht _ hs
    exact told_trans (trans_of_step hs) hi ht

/-- **No overtaking.** While an entry waits in the queue, no knote is reported twice, by whatever
threads. -/
theorem nodup_since (h : Reachable step init w) {e : Entry Tid} (he : e ∈ w.queue) :
    (w.since e).Nodup :=
  (inv_of_reachable h).fair.once e he

/-- The marker of a scan waits while a knote is reported. -/
theorem nodup_since_marker :
    ∃ w : World (Fin 2), Reachable step init w ∧ .marker 1 ∈ w.queue ∧
      w.since (.marker 1) = [.knote (3, .read)] ∧ (w.since (.marker 1)).Nodup := by
  have hrun : Reachable step (init : World (Fin 2)) _ := reachable_of_exec
    [.kqueueRegister 0 ⟨3, .read, evAdd, 0, 0, 7⟩, .findkn 0, .settle 0,
      .signal (3, .read) true, .kqueueScan 1 4, .retry 1 true, .loopTurn 1 ⟨0, 0, 1⟩,
      .exam 1 ⟨0, 0, 1⟩] rfl
  exact ⟨_, hrun, by decide, by decide, nodup_since hrun (by decide)⟩

/-- **One report per knote and call.** What a call of `kqueue_scan` returns has no two reports of
the same descriptor and filter, and no more reports than were asked for. -/
theorem proper_of_returned (h : Reachable step init w) (t : Tid) (m : ℕ) (out : List Kevent)
    (hx : (t, m, out) ∈ w.returned) : (out.map Kevent.key).Nodup ∧ out.length ≤ m :=
  (told_of_reachable h).returned (t, m, out) hx

/-- A call returns the one knote that is ready, although it has gone back to the queue. -/
theorem proper_of_returned_level :
    ∃ w : World (Fin 2), Reachable step init w ∧
      (1, 4, [⟨3, .read, 0, 0, 1, 7⟩]) ∈ w.returned ∧ .knote (3, .read) ∈ w.queue ∧
      ([⟨3, .read, 0, 0, 1, 7⟩].map Kevent.key).Nodup ∧
      [(⟨3, .read, 0, 0, 1, 7⟩ : Kevent)].length ≤ 4 := by
  have hrun : Reachable step (init : World (Fin 2)) _ := reachable_of_exec
    [.kqueueRegister 0 ⟨3, .read, evAdd, 0, 0, 7⟩, .findkn 0, .settle 0,
      .signal (3, .read) true, .kqueueScan 1 4, .retry 1 true, .loopTurn 1 ⟨0, 0, 1⟩,
      .exam 1 ⟨0, 0, 1⟩, .loopTurn 1 ⟨0, 0, 1⟩] rfl
  exact ⟨_, hrun, by decide, by decide, proper_of_returned hrun 1 4 _ (by decide)⟩

end World

end VosStack.Epoll.Concurrent
