import VosStack.Epoll.Upkeep

/-!
# No event is lost, and no thread waits in vain

A thread in `kqueue_scan` may sleep in two places.

* With `kq_count = 0` it sleeps until an event comes. `Rested` says that then `kq_count` stays 0
  and `KQ_SLEEP` stays set, so that the next `knote_enqueue` wakes it. With the discipline of the
  queue: while a thread sleeps there, no knote is to be reported.
* At a knote in flux, or at the marker of another scan, it sleeps until the flux changes, as do
  `kqueue_register` and `knote_fdclose`. A thread that takes a knote out of flux does not announce
  this at once: in a scan it sets `influx` and announces before it sleeps or returns. `Obliged`
  names the threads that will announce, and `Announced` says that there is one whenever a thread
  waits. So the threads never all wait for each other.
-/

namespace VosStack.Epoll.Concurrent

/-- The thread waits for the flux to change. -/
def Pc.waits : Pc → Bool
  | .loopWait _ => true
  | .findknWait _ => true
  | .closeWait _ => true
  | _ => false

@[simp]
theorem Pc.waits_woken (p : Pc) : p.woken.waits = false := by
  cases p <;> rfl

/-- The thread is awake in a scan and holds no knote. -/
def Pc.running : Pc → Option ScanCall
  | .loop c => some c
  | .oneshot c _ => some c
  | _ => none

theorem Pc.running_woken {p : Pc} {c : ScanCall} (h : p.running = some c) :
    p.woken.running = some c := by
  cases p <;> first | exact h | simp [Pc.running] at h

theorem Pc.woken_ne_asleep (p : Pc) (m : ℕ) : p.woken ≠ .asleep m := by
  cases p <;> nofun

namespace World

variable {Tid : Type*} [DecidableEq Tid] {w w' : World Tid}

/-! ### Sleep until an event comes -/

/-- While a thread sleeps for an event there is none, and `KQ_SLEEP` is set. -/
def Rested (w : World Tid) : Prop :=
  ∀ t m, w.pc t = .asleep m → w.count = 0 ∧ w.sleepFlag = true

/-- Nobody falls asleep and nothing is enqueued. -/
structure Calm (w w' : World Tid) : Prop where
  asleep : ∀ t m, w'.pc t = .asleep m → w.pc t = .asleep m
  count : w'.count ≤ w.count
  flag : w'.sleepFlag = w.sleepFlag

omit [DecidableEq Tid] in
theorem Rested.calm (h : Rested w) (hc : Calm w w') : Rested w' := fun t m hm => by
  obtain ⟨hcount, hflag⟩ := h t m (hc.asleep t m hm)
  exact ⟨Nat.le_zero.mp (hcount ▸ hc.count), hc.flag.trans hflag⟩

omit [DecidableEq Tid] in
/-- Changes of other fields are calm. -/
theorem Calm.of_eq (hpc : w'.pc = w.pc) (hc : w'.count ≤ w.count)
    (hf : w'.sleepFlag = w.sleepFlag) : Calm w w' :=
  ⟨by simp [hpc], hc, hf⟩

omit [DecidableEq Tid] in
theorem Calm.same (hpc : w'.pc = w.pc) (hc : w'.count = w.count)
    (hf : w'.sleepFlag = w.sleepFlag) : Calm w w' :=
  .of_eq hpc hc.le hf

theorem Calm.setPc {t : Tid} {p : Pc} (h : Calm w w') (hp : ∀ m, p ≠ .asleep m) :
    Calm w (w'.setPc t p) where
  asleep := fun u m hu => by
    by_cases hut : u = t
    · simp [World.setPc, hut, hp] at hu
    · exact h.asleep u m (by simpa [World.setPc, Function.update_of_ne hut] using hu)
  count := h.count
  flag := h.flag

omit [DecidableEq Tid] in
theorem Calm.wakeup (h : Calm w w') : Calm w w'.wakeup :=
  ⟨fun _ _ hm => absurd hm (Pc.woken_ne_asleep _ _), h.count, h.flag⟩

omit [DecidableEq Tid] in
theorem Calm.fluxWakeup (h : Calm w w') : Calm w w'.fluxWakeup := by
  unfold World.fluxWakeup
  split
  · exact ⟨h.wakeup.asleep, h.count, h.flag⟩
  · exact h

/-- After `knote_enqueue` nobody sleeps for an event. -/
theorem rested_knoteEnqueue (h : Rested w) (k : Key) (kn : LiveKnote) :
    Rested (w.knoteEnqueue k kn) := by
  intro t m hm
  unfold knoteEnqueue kqueueWakeup at hm
  split at hm
  · exact absurd hm (Pc.woken_ne_asleep _ _)
  · next hflag => exact absurd (h t m hm).2 hflag

theorem rested_enqueueIf (h : Rested w) (k : Key) (kn : LiveKnote) :
    Rested (w.enqueueIf k kn) := by
  unfold enqueueIf
  split
  · exact rested_knoteEnqueue h k kn
  · exact h.calm (.same rfl rfl rfl)

theorem Calm.countReport {t : Tid} {c : ScanCall} {kev : Kevent} (h : Calm w w') :
    Calm w (w'.countReport t c kev) := by
  unfold World.countReport
  dsimp only
  split
  · exact .fluxWakeup (.setPc h nofun)
  · exact h.setPc nofun

theorem rested_trans (h : Trans w w') (hr : Rested w) : Rested w' := by
  have hsame : Calm w w := .same rfl rfl rfl
  cases h with
  | scanNone t => exact hr
  | scanCall t m hpc hm => exact hr.calm (hsame.setPc nofun)
  | sleep t m hpc hc => exact fun _ _ _ => ⟨hc, rfl⟩
  | poll t m hpc => exact hr.calm (.fluxWakeup (.setPc (.same rfl rfl rfl) nofun))
  | enter t m hpc hc => exact hr.calm (.setPc (.same rfl rfl rfl) nofun)
  | full t c hpc hc => exact hr.calm (.fluxWakeup (.setPc (.same rfl rfl rfl) nofun))
  | atMarker t c rest hpc hc hq =>
    unfold atMarker
    split <;> exact hr.calm (.fluxWakeup (.setPc (.same rfl rfl rfl) nofun))
  | waitFlux t c e rest hpc hc hq he =>
    have hbase : Calm w (if c.influx then w.fluxWakeup else w) := by
      split
      · exact hsame.fluxWakeup
      · exact hsame
    exact hr.calm (.setPc ⟨hbase.asleep, hbase.count, hbase.flag⟩ nofun)
  | takeDisabled t c k kn rest hpc hq hkn hi hd =>
    exact hr.calm (.of_eq rfl (Nat.sub_le ..) rfl)
  | takeDrop t c k kn rest hpc hc hq hkn hi =>
    exact hr.calm (.setPc (.of_eq rfl (Nat.sub_le ..) rfl) nofun)
  | takeOneshot t c k kn rest r hpc hc hq hkn hi hd ho =>
    exact hr.calm (.setPc (.of_eq rfl (Nat.sub_le ..) rfl) nofun)
  | takeExam t c k kn rest hpc hc hq hkn hi hd ho =>
    exact hr.calm (.setPc (.same rfl rfl rfl) nofun)
  | examIdle t c k kn hpc hkn hrd =>
    exact hr.calm (.setPc (.of_eq rfl (Nat.sub_le ..) rfl) nofun)
  | examClear t c k kn r hpc hkn hf =>
    exact hr.calm (.countReport (.of_eq rfl (Nat.sub_le ..) rfl))
  | examAgain t c k kn r hpc hkn hf => exact hr.calm (.countReport (.same rfl rfl rfl))
  | countOneshot t c kev hpc => exact hr.calm hsame.countReport
  | knoteDrop t k after kn hpc hkn =>
    have hbase : Calm w (w.dequeueIf k kn) := by
      unfold dequeueIf
      split
      · exact .of_eq rfl (Nat.sub_le ..) rfl
      · exact hsame
    have hnext : ∀ m, after.next ≠ .asleep m := by
      rcases after with ⟨c, _ | kev⟩ | _ | fd <;> nofun
    exact hr.calm (.fluxWakeup (.setPc ⟨hbase.asleep, hbase.count, hbase.flag⟩ hnext))
  | refusedInval kev hf => exact hr
  | registerCall t kev hpc hf => exact hr.calm (hsame.setPc nofun)
  | attachNew t kev hpc hkn ha => exact hr.calm (.setPc (.same rfl rfl rfl) nofun)
  | refusedNoent t kev hpc hkn ha => exact hr.calm (.setPc (.same rfl rfl rfl) nofun)
  | findknWait t kev kn hpc hkn hi => exact hr.calm (.setPc (.same rfl rfl rfl) nofun)
  | deleteOld t kev kn hpc hkn hi hd => exact hr.calm (.setPc (.same rfl rfl rfl) nofun)
  | touchOld t kev kn hpc hkn hi hd =>
    refine touchOld_of hr (rested_enqueueIf hr kev.key) fun w₁ kn' table hr₁ => ?_
    exact hr₁.calm (.setPc (.same rfl rfl rfl) nofun)
  | settle t kev kn hpc hkn =>
    refine Rested.calm (rested_enqueueIf ?_ _ _) (.fluxWakeup (.same rfl rfl rfl))
    exact hr.calm (.setPc (.same rfl rfl rfl) nofun)
  | closeCall t fd hpc => exact hr.calm (hsame.setPc nofun)
  | closeWait t fd f influx kn hpc hkn hi =>
    have hbase : Calm w (if influx then w.wakeup else w) := by
      split
      · exact hsame.wakeup
      · exact hsame
    exact hr.calm (.setPc ⟨hbase.asleep, hbase.count, hbase.flag⟩ nofun)
  | closeDrop t fd f influx kn hpc hkn hi => exact hr.calm (.setPc (.same rfl rfl rfl) nofun)
  | closeDone t fd influx hpc => exact hr.calm (.fluxWakeup (.setPc hsame nofun))
  | setReady k ready h => exact hr
  | activate k kn hkn =>
    have hready : Rested (w.setReady k true) := hr.calm (.same rfl rfl rfl)
    exact rested_enqueueIf hready k _

theorem rested_of_reachable (h : Transition.Reachable step init w) : Rested w := by
  refine h.induct (I := Rested) (fun t m hm => by simp [init] at hm) ?_
  intro w w' a hr _ hs
  exact rested_trans (trans_of_step hs) hr

/-- **No event is lost.** A knote that is enabled and whose socket is ready, with news since the
last report if it has `EV_CLEAR`, is counted, and no thread sleeps for an event, unless a thread
is just making, changing or dropping the knote. -/
theorem awake_of_due (h : Transition.Reachable step init w) {k : Key} {kn : LiveKnote}
    (hkn : w.knotes k = some kn) (hdue : View.Due kn (w.ready k) (w.fresh k))
    (hbusy : ∀ t s, (w.pc t).role ≠ .busy k s) :
    0 < w.count ∧ ∀ t m, w.pc t ≠ .asleep m := by
  have hi := inv_of_reachable h
  have hfree : ¬ View.Busy w.view.role k := fun ⟨t, s, ht⟩ => hbusy t s ht
  have hlive := hi.live k kn hkn
  have hqd : kn.queued = true := hlive.queued (hlive.due hdue hfree) hdue.2.1 hfree
  have hpos : 0 < w.count := by
    have hcount : w.count = w.queue.countP Entry.isKnote + w.exams.length := hi.queued.count
    by_cases hk : k ∈ w.exams
    · have := List.length_pos_of_mem hk
      omega
    · have hmem : .knote k ∈ w.queue := (hi.queued.knote k).mpr ⟨hk, kn, hkn, hqd⟩
      have : 0 < w.queue.countP Entry.isKnote := List.countP_pos_iff.mpr ⟨_, hmem, rfl⟩
      omega
  refine ⟨hpos, fun t m hm => ?_⟩
  exact hpos.ne' (rested_of_reachable h t m hm).1

/-- A thread sleeps, another one adds a knote, and the socket becomes ready. -/
theorem awake_of_due_signal :
    ∃ (w : World (Fin 2)) (kn : LiveKnote), Transition.Reachable step init w ∧
      w.knotes (3, .read) = some kn ∧ View.Due kn (w.ready (3, .read)) (w.fresh (3, .read)) ∧
      0 < w.count ∧ ∀ t m, w.pc t ≠ .asleep m := by
  have hrun : Transition.Reachable step (init : World (Fin 2)) _ := Transition.reachable_of_exec
    [.kqueueScan 1 4, .retry 1 true, .kqueueRegister 0 ⟨3, .read, evAdd, 0, 0, 7⟩, .findkn 0,
      .settle 0, .signal (3, .read) true] rfl
  have hdue : View.Due ⟨⟨0, false, 7⟩, true, true, false, false⟩ true true := by decide
  exact ⟨_, ⟨⟨0, false, 7⟩, true, true, false, false⟩, hrun, rfl, hdue,
    awake_of_due (k := (3, .read)) hrun rfl hdue (by decide)⟩

/-! ### Sleep until the flux changes -/

/-- A thread that waits will be found by the next announcement. -/
def Flagged (w : World Tid) : Prop := ∀ t, (w.pc t).waits = true → w.fluxFlag = true

/-- The thread will announce a change of the flux: it holds a knote, or it is awake in a scan
and has let go of one, or it is awake in a scan and its own marker is at the head. -/
def Obliged (w : World Tid) (t : Tid) : Prop :=
  (w.pc t).role.held ≠ none ∨
    ∃ c, (w.pc t).running = some c ∧ (c.influx = true ∨ w.queue.head? = some (.marker t))

/-- While a thread waits, a thread will announce, and the announcement will find it. -/
structure Announced (w : World Tid) : Prop where
  flagged : w.Flagged
  obliged : ∀ t, (w.pc t).waits = true → ∃ u, w.Obliged u

omit [DecidableEq Tid] in
theorem Flagged.of_eq (h : Flagged w) (hpc : w'.pc = w.pc) (hf : w'.fluxFlag = w.fluxFlag) :
    Flagged w' := fun t ht => by
  rw [hf]
  exact h t (hpc ▸ ht)

theorem Flagged.setPc {t : Tid} {p : Pc} (h : Flagged w) (hp : p.waits = false) :
    Flagged (w.setPc t p) := fun u hu => by
  by_cases hut : u = t
  · simp [World.setPc, hut, hp] at hu
  · exact h u (by simpa [World.setPc, Function.update_of_ne hut] using hu)

theorem Flagged.enqueueIf (h : Flagged w) (k : Key) (kn : LiveKnote) :
    Flagged (w.enqueueIf k kn) := by
  unfold World.enqueueIf World.knoteEnqueue World.kqueueWakeup
  split
  · split
    · exact fun u hu => by simp [wakeup] at hu
    · exact h.of_eq rfl rfl
  · exact h.of_eq rfl rfl

omit [DecidableEq Tid] in
/-- After an announcement nobody waits. -/
theorem announced_fluxWakeup (h : Flagged w) : Announced w.fluxWakeup := by
  have hnone (t : Tid) : (w.fluxWakeup.pc t).waits = false := by
    unfold fluxWakeup
    split
    · exact Pc.waits_woken _
    · next hflag => exact Bool.eq_false_iff.mpr fun ht => hflag (h t ht)
  constructor <;> intro t ht <;> simp [hnone t] at ht

omit [DecidableEq Tid] in
/-- A thread that does not move stays obliged, also when it is woken. -/
theorem Obliged.stay {u : Tid} (h : w.Obliged u)
    (hpc : w'.pc u = w.pc u ∨ w'.pc u = (w.pc u).woken)
    (hq : w.queue.head? = some (.marker u) → w'.queue.head? = some (.marker u)) :
    w'.Obliged u := by
  have hrole : (w'.pc u).role = (w.pc u).role := by
    rcases hpc with hpc | hpc <;> simp [hpc]
  rcases h with h | ⟨c, hc, h⟩
  · exact .inl (hrole ▸ h)
  · refine .inr ⟨c, ?_, h.imp_right hq⟩
    rcases hpc with hpc | hpc
    · rwa [hpc]
    · rw [hpc, Pc.running_woken hc]

/-- A step of the thread `t` after which an obliged thread is still there. -/
theorem Announced.keep {t : Tid} (h : Announced w)
    (hw : ∀ u, (w'.pc u).waits = true → (w.pc u).waits = true)
    (hf : w'.fluxFlag = w.fluxFlag)
    (hpc : ∀ u ≠ t, w'.pc u = w.pc u ∨ w'.pc u = (w.pc u).woken)
    (hq : ∀ u ≠ t, w.queue.head? = some (.marker u) → w'.queue.head? = some (.marker u))
    (ht : w.Obliged t → w'.Obliged t) : Announced w' where
  flagged := fun u hu => hf.trans (h.flagged u (hw u hu))
  obliged := fun u hu => by
    obtain ⟨x, hx⟩ := h.obliged u (hw u hu)
    by_cases hxt : x = t
    · exact ⟨t, ht (hxt ▸ hx)⟩
    · exact ⟨x, hx.stay (hpc x hxt) (hq x hxt)⟩

/-- A thread moves, and other fields change. -/
theorem Announced.setPc {t : Tid} {p : Pc} (h : Announced w) (hp : p.waits = false)
    (hpc : w'.pc = w.pc) (hf : w'.fluxFlag = w.fluxFlag)
    (hq : ∀ u ≠ t, w.queue.head? = some (.marker u) → w'.queue.head? = some (.marker u))
    (ht : w.Obliged t → (w'.setPc t p).Obliged t) : Announced (w'.setPc t p) := by
  refine h.keep (t := t) ?_ hf ?_ hq ht
  · intro u hu
    by_cases hut : u = t
    · simp [World.setPc, hut, hp] at hu
    · simpa [World.setPc, Function.update_of_ne hut, hpc] using hu
  · intro u hut
    exact .inl (by simp [World.setPc, Function.update_of_ne hut, hpc])

omit [DecidableEq Tid] in
theorem obliged_of_held {t : Tid} {k : Key} (h : (w.pc t).role.held = some k) : w.Obliged t :=
  .inl (by simp [h])

theorem obliged_setPc_of_held {t : Tid} {p : Pc} {k : Key} (h : p.role.held = some k) :
    (w.setPc t p).Obliged t :=
  obliged_of_held (k := k) (by simpa [setPc] using h)

omit [DecidableEq Tid] in
theorem not_obliged_of_role {t : Tid} (h : (w.pc t).role = .out) : ¬ w.Obliged t := by
  rintro (hh | ⟨c, hc, -⟩)
  · simp [h] at hh
  · cases hpc : w.pc t <;> simp [hpc, Pc.running] at hc <;> simp [hpc, Pc.role] at h

omit [DecidableEq Tid] in
theorem head_append {q : List (Entry Tid)} {e : Entry Tid} (x : Entry Tid)
    (h : q.head? = some e) : (q ++ [x]).head? = some e := by
  simp [List.head?_append, h]

/-- The knote goes to the queue or not, and threads may be woken. -/
theorem Announced.enqueueIf (h : Announced w) (k : Key) (kn : LiveKnote) :
    Announced (w.enqueueIf k kn) where
  flagged := h.flagged.enqueueIf k kn
  obliged := by
    unfold World.enqueueIf World.knoteEnqueue World.kqueueWakeup
    split
    · split
      · exact fun u hu => by simp [wakeup] at hu
      · intro u hu
        obtain ⟨x, hx⟩ := h.obliged u hu
        exact ⟨x, hx.stay (.inl rfl) (head_append _)⟩
    · intro u hu
      obtain ⟨x, hx⟩ := h.obliged u hu
      exact ⟨x, hx.stay (.inl rfl) id⟩

/-- A new thread waits for the flux, as long as there is one that is obliged. -/
theorem Announced.wait {t u : Tid} {p : Pc} (hu : u ≠ t) (ho : w.Obliged u) :
    Announced ({ w with fluxFlag := true }.setPc t p) where
  flagged := fun _ _ => rfl
  obliged := fun _ _ =>
    ⟨u, ho.stay (.inl (by simp [World.setPc, Function.update_of_ne hu])) id⟩

theorem countReport_announced {t : Tid} {c : ScanCall} {kev : Kevent} {w₁ : World Tid}
    (h : Announced w) (hpc : w₁.pc = w.pc) (hf : w₁.fluxFlag = w.fluxFlag)
    (hq : ∀ u, w.queue.head? = some (.marker u) → w₁.queue.head? = some (.marker u))
    (ht : w.Obliged t → c.influx = true ∨ w₁.queue.head? = some (.marker t)) :
    Announced (w₁.countReport t c kev) := by
  unfold countReport
  dsimp only
  split
  · exact announced_fluxWakeup ((h.flagged.of_eq hpc hf).setPc rfl)
  · refine h.setPc rfl hpc hf (fun u _ => hq u) fun hob => .inr ?_
    exact ⟨{ c with out := c.out ++ [kev] }, by simp [World.setPc, Pc.running], ht hob⟩

theorem announced_waitFlux (hi : w.view.Inv) (h : Announced w) {t : Tid} {c : ScanCall}
    {e : Entry Tid} {rest : List (Entry Tid)} (hpc : w.pc t = .loop c)
    (hq : w.queue = e :: rest) (he : w.Blocks t e) : Announced (w.waitFlux t c) := by
  unfold waitFlux
  set w₁ : World Tid := if c.influx then w.fluxWakeup else w with hw₁
  have hrole : w₁.view = w.view := by
    rw [hw₁]
    split
    · exact view_fluxWakeup w
    · rfl
  have hpc₁ (u : Tid) : w₁.pc u = w.pc u ∨ w₁.pc u = (w.pc u).woken := by
    rw [hw₁]
    split
    · unfold fluxWakeup
      split
      · exact .inr rfl
      · exact .inl rfl
    · exact .inl rfl
  have hqueue : w₁.queue = e :: rest := by
    have : w₁.queue = w.queue := congrArg View.queue hrole
    rw [this, hq]
  have hheld {u : Tid} {k : Key} (hu : (w.pc u).role.held = some k) : u ≠ t ∧ w₁.Obliged u := by
    refine ⟨?_, ?_⟩
    · rintro rfl
      simp [hpc, Pc.role] at hu
    · refine obliged_of_held (k := k) ?_
      have : (w₁.pc u).role = (w.pc u).role := congrFun (congrArg View.role hrole) u
      rw [this, hu]
  suffices hex : ∃ u ≠ t, w₁.Obliged u by
    obtain ⟨u, hut, hu⟩ := hex
    exact .wait hut hu
  cases e with
  | knote k =>
    obtain ⟨kn, hkn, hk⟩ := he
    obtain ⟨u, hu⟩ := hi.flux.owner k kn hkn hk
    exact ⟨u, hheld hu⟩
  | marker u =>
    have hscans : (w.pc u).role.scans = true :=
      (hi.queued.marker u).mp (by simp [view, hq])
    have hhead : w₁.queue.head? = some (.marker u) := by rw [hqueue]; rfl
    -- the scan of the marker is awake, or holds a knote, or waits itself
    cases hu : w.pc u with
    | loop c' =>
      refine ⟨u, he, .inr ⟨c', ?_, .inr hhead⟩⟩
      rcases hpc₁ u with h | h <;> simp [h, hu, Pc.running, Pc.woken]
    | oneshot c' kev =>
      refine ⟨u, he, .inr ⟨c', ?_, .inr hhead⟩⟩
      rcases hpc₁ u with h | h <;> simp [h, hu, Pc.running, Pc.woken]
    | exam k c' => exact ⟨u, hheld (k := k) (by simp [hu, Pc.role])⟩
    | drop k after => exact ⟨u, hheld (k := k) (by simp [hu, Pc.role_drop])⟩
    | loopWait c' =>
      have hwaits : (w.pc u).waits = true := by simp [hu, Pc.waits]
      by_cases hin : c.influx = true
      · -- it has just been woken
        refine ⟨u, he, .inr ⟨c', ?_, .inr hhead⟩⟩
        simp [hw₁, hin, fluxWakeup, h.flagged u hwaits, wakeup, hu, Pc.woken, Pc.running]
      · -- nobody has been woken; the thread that is obliged is not this one
        have hsame : w₁ = w := by simp [hw₁, hin]
        obtain ⟨x, hx⟩ := h.obliged u hwaits
        refine ⟨x, ?_, hsame ▸ hx⟩
        rintro rfl
        rcases hx with hx | ⟨c₂, hc₂, hx⟩
        · simp [hpc, Pc.role] at hx
        · obtain rfl : c = c₂ := by simpa [hpc, Pc.running] using hc₂
          rcases hx with hx | hx
          · exact hin hx
          · simp only [hq, List.head?_cons, Option.some.injEq, Entry.marker.injEq] at hx
            exact he hx
    | _ => simp [hu, Pc.role] at hscans

section transitions

variable {t : Tid} {k : Key} {kn : LiveKnote} {w₁ : World Tid}

/-- A thread moves that has nothing to announce. -/
theorem Announced.setOut {p₀ p : Pc} (h : Announced w) (hpc : w.pc t = p₀)
    (hrole : p₀.role = .out) (hp : p.waits = false) (hpc₁ : w₁.pc = w.pc)
    (hf : w₁.fluxFlag = w.fluxFlag)
    (hq : ∀ u, w.queue.head? = some (.marker u) → w₁.queue.head? = some (.marker u)) :
    Announced (w₁.setPc t p) :=
  h.setPc hp hpc₁ hf (fun u _ => hq u) fun ho =>
    absurd ho (not_obliged_of_role (hpc ▸ hrole))

/-- A thread takes a knote, and will announce that it lets it go. -/
theorem Announced.hold {p : Pc} (h : Announced w) (hp : p.waits = false)
    (hheld : p.role.held = some k) (hpc₁ : w₁.pc = w.pc) (hf : w₁.fluxFlag = w.fluxFlag)
    (hq : ∀ u, w.queue.head? = some (.marker u) → w₁.queue.head? = some (.marker u)) :
    Announced (w₁.setPc t p) :=
  h.setPc hp hpc₁ hf (fun u _ => hq u) fun _ => obliged_setPc_of_held hheld

omit [DecidableEq Tid] in
/-- There is no marker at the head while a knote is there. -/
theorem not_marker_of_knote {rest q : List (Entry Tid)} (hq : w.queue = .knote k :: rest) (u : Tid)
    (hu : w.queue.head? = some (.marker u)) : q.head? = some (.marker u) := by
  simp [hq] at hu

omit [DecidableEq Tid] in
/-- The knote is in flux, so another thread holds it. -/
theorem exists_obliged (hi : w.view.Inv) (hrole : (w.pc t).role = .out)
    (hkn : w.knotes k = some kn) (hin : kn.influx = true) :
    ∃ u ≠ t, (w.pc u).role.held = some k := by
  obtain ⟨u, hu⟩ := hi.flux.owner k kn hkn hin
  refine ⟨u, ?_, hu⟩
  rintro rfl
  rw [show w.view.role u = .out from hrole] at hu
  exact absurd hu nofun

theorem Announced.countOneshot {c : ScanCall} {kev : Kevent} (h : Announced w)
    (hpc : w.pc t = .oneshot c kev) : Announced (w.countReport t c kev) := by
  refine countReport_announced h rfl rfl (fun _ => id) fun ho => ?_
  rcases ho with ho | ⟨c', hc', ho⟩
  · simp [hpc, Pc.role] at ho
  · obtain rfl : c = c' := by simpa [hpc, Pc.running] using hc'
    exact ho

theorem Announced.knoteDrop (h : Announced w) (after : After) :
    Announced (((w.dequeueIf k kn).setKnote k none).setPc t after.next).fluxWakeup := by
  have hnext : after.next.waits = false := by
    rcases after with ⟨c, _ | kev⟩ | _ | fd <;> rfl
  have hbase : Flagged (w.dequeueIf k kn) := by
    unfold dequeueIf
    split
    · exact h.flagged.of_eq rfl rfl
    · exact h.flagged
  exact announced_fluxWakeup (.setPc (hbase.of_eq rfl rfl) hnext)

theorem announced_closeWait {fd : ℕ} {influx : Bool} {u : Tid} (hut : u ≠ t)
    (hu : (w.pc u).role.held = some k) : Announced (w.closeWait t fd influx) := by
  unfold closeWait
  split
  · exact .wait hut (Obliged.stay (obliged_of_held hu) (.inr rfl) id)
  · exact .wait hut (obliged_of_held hu)

end transitions

theorem announced_trans (ht : Trans w w') (hi : w.view.Inv) (h : Announced w) :
    Announced w' := by
  cases ht with
  | scanNone t => exact ⟨h.flagged, h.obliged⟩
  | scanCall t m hpc hm => exact h.setOut hpc rfl rfl rfl rfl fun _ => id
  | sleep t m hpc hc => exact h.setOut hpc rfl rfl rfl rfl fun _ => id
  | poll t m hpc => exact announced_fluxWakeup (.setPc (h.flagged.of_eq rfl rfl) rfl)
  | enter t m hpc hc => exact h.setOut hpc rfl rfl rfl rfl fun _ => head_append _
  | full t c hpc hc => exact announced_fluxWakeup (.setPc (h.flagged.of_eq rfl rfl) rfl)
  | atMarker t c rest hpc hc hq =>
    unfold atMarker
    split <;> exact announced_fluxWakeup (.setPc (h.flagged.of_eq rfl rfl) rfl)
  | waitFlux t c e rest hpc hc hq he => exact announced_waitFlux hi h hpc hq he
  | takeDisabled t c k kn rest hpc hq hkn hin hd =>
    exact h.keep (t := t) (fun _ => id) rfl (fun _ _ => .inl rfl)
      (fun u _ => not_marker_of_knote hq u) fun ho => ho.stay (.inl rfl) (not_marker_of_knote hq t)
  | takeDrop t c k kn rest hpc hc hq hkn hin =>
    exact h.hold (k := k) rfl rfl rfl rfl (not_marker_of_knote hq)
  | takeOneshot t c k kn rest r hpc hc hq hkn hin hd ho =>
    exact h.hold (k := k) rfl rfl rfl rfl (not_marker_of_knote hq)
  | takeExam t c k kn rest hpc hc hq hkn hin hd ho =>
    exact h.hold (k := k) rfl rfl rfl rfl (not_marker_of_knote hq)
  | examIdle t c k kn hpc hkn hrd =>
    refine h.setPc rfl rfl rfl (fun _ _ => id) fun _ => .inr ?_
    exact ⟨_, by simp only [setPc, Function.update_self]; rfl, .inl rfl⟩
  | examClear t c k kn r hpc hkn hf =>
    exact countReport_announced h rfl rfl (fun _ => id) fun _ => .inl rfl
  | examAgain t c k kn r hpc hkn hf =>
    exact countReport_announced h rfl rfl (fun _ => head_append _) fun _ => .inl rfl
  | countOneshot t c kev hpc => exact h.countOneshot hpc
  | knoteDrop t k after kn hpc hkn => exact h.knoteDrop after
  | refusedInval kev hf => exact ⟨h.flagged, h.obliged⟩
  | registerCall t kev hpc hf => exact h.setOut hpc rfl rfl rfl rfl fun _ => id
  | attachNew t kev hpc hkn ha => exact h.hold (k := kev.key) rfl rfl rfl rfl fun _ => id
  | refusedNoent t kev hpc hkn ha => exact h.setOut hpc rfl rfl rfl rfl fun _ => id
  | findknWait t kev kn hpc hkn hin =>
    obtain ⟨u, hut, hu⟩ := exists_obliged hi (t := t) (by simp [hpc, Pc.role]) hkn hin
    exact .wait hut (obliged_of_held hu)
  | deleteOld t kev kn hpc hkn hin hd =>
    exact h.hold (k := kev.key) rfl rfl rfl rfl fun _ => id
  | touchOld t kev kn hpc hkn hin hd =>
    refine touchOld_of h (h.enqueueIf kev.key) fun w₁ kn' table h₁ => ?_
    exact h₁.hold (k := kev.key) rfl rfl rfl rfl fun _ => id
  | settle t kev kn hpc hkn =>
    refine announced_fluxWakeup (Flagged.enqueueIf (Flagged.setPc ?_ rfl) _ _)
    exact h.flagged.of_eq rfl rfl
  | closeCall t fd hpc => exact h.setOut hpc rfl rfl rfl rfl fun _ => id
  | closeWait t fd f influx kn hpc hkn hin =>
    obtain ⟨u, hut, hu⟩ := exists_obliged hi (t := t) (by simp [hpc, Pc.role]) hkn hin
    exact announced_closeWait hut hu
  | closeDrop t fd f influx kn hpc hkn hin =>
    exact h.hold (k := (fd, f)) rfl rfl rfl rfl fun _ => id
  | closeDone t fd influx hpc => exact announced_fluxWakeup (.setPc h.flagged rfl)
  | setReady k ready hr => exact ⟨h.flagged, h.obliged⟩
  | activate k kn hkn =>
    have hready : Announced (w.setReady k true) := ⟨h.flagged, h.obliged⟩
    exact hready.enqueueIf k _

theorem announced_of_reachable (h : Transition.Reachable step init w) : Announced w := by
  refine h.induct_of (I := Announced) (J := fun w => w.view.Inv)
    (fun w hw => inv_of_reachable hw) ⟨?_, ?_⟩ ?_
  · exact fun t ht => by simp [init, Pc.waits] at ht
  · exact fun t ht => by simp [init, Pc.waits] at ht
  · intro w w' a hi ha _ hs
    exact announced_trans (trans_of_step hs) hi ha

end World

end VosStack.Epoll.Concurrent
