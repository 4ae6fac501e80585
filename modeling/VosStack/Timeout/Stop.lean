import VosStack.Timeout.Executors

/-!
# What `callout_stop` and `callout_drain` guarantee

A callout is *settled* if it is not pending, and if an executor that has it but has not called
it yet is going to skip it. Nothing but arming the callout ends this, and a settled callout is
not called. `callout_stop` by a thread that holds the callout's lock settles it, and so does one
that reports that the callout was stopped, unless the callout is armed as a direct one for the
first time meanwhile: the function has then read `CALLOUT_DIRECT` too early. After `callout_drain`
moreover no executor has the callout, so that its memory may be released.
-/

namespace VosStack.Timeout

namespace World

variable {Cid Lock Call Tid : Type*}
variable {cfg : Setup Lock} {w w' : World Cid Lock Call Tid}

/-- The callout is not pending; if `busy` then an executor may have it, but not in order to call
it. -/
structure SettledWith (busy : Prop) (c : Cid) (callouts : Cid → Callout Lock Call)
    (exec : Bool → Exec Cid Call) (stage : Bool → Stage Cid Call) : Prop where
  pending : (callouts c).pending = false
  called : ∀ d, (stage d).callout = some c → busy ∧ (∀ call, stage d ≠ .committed c call) ∧
    ((stage d).before ≠ none → (callouts c).lock.isSome = true ∧ (exec d).cancel = true)

/-- The callout is not called unless it is armed. -/
def Settled (w : World Cid Lock Call Tid) (busy : Prop) (c : Cid) : Prop :=
  SettledWith busy c w.callouts w.exec w.stage

section settled

variable {busy : Prop} {c x : Cid} {callouts : Cid → Callout Lock Call}
variable {exec exec' : Bool → Exec Cid Call} {stage : Bool → Stage Cid Call} {d : Bool}
variable {k : Callout Lock Call} {y : Stage Cid Call}

/-- Executors are told to cancel, drain or wake. -/
theorem SettledWith.setExec (h : SettledWith busy c callouts exec stage)
    (hexec : ∀ d, (exec d).cancel = true → (exec' d).cancel = true) :
    SettledWith busy c callouts exec' stage where
  pending := h.pending
  called := by
    intro d hd
    obtain ⟨hbusy, hnot, hskip⟩ := h.called d hd
    exact ⟨hbusy, hnot, fun hb => ⟨(hskip hb).1, hexec d (hskip hb).2⟩⟩

/-- An executor goes on. -/
theorem SettledWith.setStage (h : SettledWith busy c callouts exec stage)
    (hexec : ∀ d', d' ≠ d → exec' d' = exec d') (hy : y.callout = some c →
      (stage d).callout = some c ∧ (∀ call, y ≠ .committed c call) ∧
        (y.before ≠ none → (stage d).before ≠ none ∧ exec' d = exec d)) :
    SettledWith busy c callouts exec' (Function.update stage d y) where
  pending := h.pending
  called := by
    intro d' hd'
    by_cases heq : d' = d
    · rw [heq, Function.update_self] at hd' ⊢
      obtain ⟨hat, hnot, hbefore⟩ := hy hd'
      obtain ⟨hbusy, -, hskip⟩ := h.called d hat
      refine ⟨hbusy, hnot, fun hb => ?_⟩
      obtain ⟨hb, hex⟩ := hbefore hb
      rw [hex]
      exact hskip hb
    · rw [Function.update_of_ne heq] at hd' ⊢
      rw [hexec d' heq]
      exact h.called d' hd'

theorem SettledWith.wakeWaiting (h : SettledWith busy c callouts exec w.stage)
    (hexec : ∀ d', d' ≠ d → w.exec d' = exec d') :
    SettledWith busy c callouts (w.wakeWaiting d).exec (w.wakeWaiting d).stage := by
  rw [World.wakeWaiting]
  split
  · refine h.setStage (fun d' hd' => ?_) fun hy => absurd hy (Option.some_ne_none c).symm
    exact (Function.update_of_ne hd' _ _).trans (hexec d' hd')
  · exact h.setStage hexec fun hy => absurd hy (Option.some_ne_none c).symm

theorem log_wakeWaiting (w : World Cid Lock Call Tid) (d : Bool) :
    (w.wakeWaiting d).log = w.log := by
  rw [World.wakeWaiting]
  split <;> rfl

variable [DecidableEq Cid]

/-- A callout is changed; it may not become pending if it is the settled one. -/
theorem SettledWith.setCallout (h : SettledWith busy c callouts exec stage)
    (hk : x = c → k.pending = false ∧ k.lock = (callouts c).lock) :
    SettledWith busy c (Function.update callouts x k) exec stage := by
  by_cases hx : c = x
  · subst hx
    obtain ⟨hpend, hlock⟩ := hk rfl
    refine ⟨?_, ?_⟩
    · rw [Function.update_self]
      exact hpend
    · rw [Function.update_self, hlock]
      exact h.called
  · refine ⟨?_, ?_⟩
    · rw [Function.update_of_ne hx]
      exact h.pending
    · rw [Function.update_of_ne hx]
      exact h.called

/-- How often the handler of the callout was called. -/
def calls (w : World Cid Lock Call Tid) (c : Cid) : ℕ := w.log.countP (Event.isCall c)

theorem calls_append (es : List (Event Cid Call))
    (hlog : w'.log = w.log ++ es) (hes : ∀ e ∈ es, Event.isCall c e = false) :
    w'.calls c = w.calls c := by
  have hzero : es.countP (Event.isCall c) = 0 :=
    List.countP_eq_zero.mpr fun e he => by simp [hes e he]
  rw [calls, hlog, List.countP_append, hzero]
  rfl

variable {mode : Cid → Bool} {lock : Cid → Option Lock} {returnUnlocked : Cid → Bool}
variable {call : Call} {w₁ w₂ : World Cid Lock Call Tid} {a : Agent Tid} {t : Tid}

variable [DecidableEq Tid]

/-- A callout that can be stopped is about to be called and is not armed again. -/
theorem Orderly.pending_of_stoppable (h : Orderly cfg mode w) (hrun : w.isRunning a = true)
    (hcurr : w.current c d = true) {drain : Option Call} (hstop : w.stoppable a c d drain = true) :
    (w.callouts c).pending = false := by
  have hd := h.fit d
  have hat : (w.stage d).callout = some c := hd.curr.symm.trans (of_decide_eq_true hcurr)
  simp only [stoppable, Bool.and_eq_true, Bool.not_eq_true'] at hstop
  obtain ⟨⟨huse, hcancel⟩, -⟩ := hstop
  have hlock : w.locked c = true := locked_of_useLock huse
  rcases Stage.cases_of_callout hat with ⟨call, hb⟩ | ⟨call, hx⟩ | hx
  · exact h.paired.alone _ c call hb hlock hcancel
  · exact absurd (by rw [hx]; rfl) (h.owned.not_holder hrun huse d)
  · have hset := hd.cancel c hx hlock
    rw [hcancel] at hset
    exact absurd hset Bool.false_ne_true

/-- `callout_stop` settles the callout. -/
theorem Orderly.settled_of_stop (h : Orderly cfg mode w) (hrun : w.isRunning a = true)
    {direct executing : Bool} (hread : direct = (w.callouts c).direct)
    (hcond : w.useLock a c = true ∨
      executing = false ∧ w.stopResult a c direct executing none ≠ 0) :
    (w.calloutStop cfg a c direct executing none).Settled True c := by
  have hframe := frame_calloutStop cfg w c a direct executing none
  have hall : w.current c direct = true → w.useLock a c = true := by
    intro hcurr
    refine hcond.elim id fun ⟨hex, hres⟩ => ?_
    rw [stopResult, if_pos hcurr, hex, Bool.or_false] at hres
    by_cases hstop : w.stoppable a c direct none = true
    · simp only [stoppable, Bool.and_eq_true] at hstop
      exact hstop.1.1
    · rw [if_neg hstop] at hres
      exact absurd rfl hres
  rw [Settled, callouts_calloutStop, exec_calloutStop, hframe.stage]
  refine ⟨?_, fun d hd => ?_⟩
  · rw [Function.update_self, stopCallout]
    by_cases hstop : w.current c direct = true ∧ w.stoppable a c direct none = true
    · rw [h.pending_of_stoppable hrun hstop.1 hstop.2, Bool.false_and]
    · rw [eq_false_of_ne_true fun heq => hstop (Bool.and_eq_true_iff.mp heq), Bool.and_false]
  · -- the executor that has the callout is the one that was looked at
    obtain rfl : direct = d := hread.trans (h.paired.called d c hd).2
    have hcurr : w.current c direct = true := decide_eq_true ((h.fit direct).curr.trans hd)
    have huse := hall hcurr
    refine ⟨trivial, fun call hx => ?_, fun _ => ⟨?_, ?_⟩⟩
    · exact h.owned.not_holder hrun huse direct (by rw [hx]; rfl)
    · rw [Function.update_self]
      exact locked_of_useLock huse
    · rw [Function.update_self, stopExec]
      simp only [stoppable, hcurr, huse, Bool.true_and, Option.isNone_none, Bool.and_true]
      exact Bool.or_not_self _

variable [DecidableEq Lock]

/-- **A settled callout stays settled** until it is armed. -/
theorem settled_of_trans {a : Action Cid Lock Call Tid} (hl : View.Linked cfg w.view)
    (h : w.Settled busy c) (ha : ∀ direct, a.arms ≠ some (c, direct)) (ht : Trans cfg w a w') :
    w'.Settled busy c := by
  cases ht with
  | takeDirect s x hscan hidle htmp hdue hdirect =>
    have hmem := hl.tmp_mem hscan (congrArg Stage.engaged hidle) htmp
    have hpend : (w.callouts x).pending = true := ((hl.lists.mem_callwheel x _).mp hmem).1
    have hne : x ≠ c := fun heq => by
      rw [heq, h.pending] at hpend
      exact Bool.false_ne_true hpend
    refine (SettledWith.setStage h (fun d' hd' => Function.update_of_ne hd' _ _)
      fun hy => ?_).setCallout fun heq => absurd heq hne
    exact absurd (Option.some.inj hy) hne
  | expire s x hscan hidle htmp hdue hdirect =>
    have hmem := hl.tmp_mem hscan (congrArg Stage.engaged hidle) htmp
    have hpend : (w.callouts x).pending = true := ((hl.lists.mem_callwheel x _).mp hmem).1
    refine SettledWith.setCallout h fun heq => ?_
    rw [heq, h.pending] at hpend
    exact absurd hpend Bool.false_ne_true
  | softclockTake x q hsoft hidle hfree hq =>
    have hmem : x ∈ w.view.expireq := by
      change x ∈ w.expireq
      rw [hq]
      exact List.mem_cons_self
    have hpend : (w.callouts x).pending = true := ((hl.lists.mem_expireq x).mp hmem).1
    have hne : x ≠ c := fun heq => by
      rw [heq, h.pending] at hpend
      exact Bool.false_ne_true hpend
    refine (SettledWith.setStage h (fun d' hd' => Function.update_of_ne hd' _ _)
      fun hy => ?_).setCallout fun heq => absurd heq hne
    exact absurd (Option.some.inj hy) hne
  | lockCallout d x call l hstage =>
    refine SettledWith.setStage h (fun _ _ => rfl) fun hy => ?_
    rw [hstage]
    exact ⟨hy, by simp, fun _ => ⟨Option.some_ne_none _, rfl⟩⟩
  | callUnlocked d x call hstage =>
    refine SettledWith.setStage h (fun d' hd' => Function.update_of_ne hd' _ _) fun hy => ?_
    rw [hstage]
    exact ⟨hy, by simp, fun hb => absurd rfl hb⟩
  | skip d x call l hstage =>
    refine SettledWith.setStage h (fun _ _ => rfl) fun hy => ?_
    rw [hstage]
    exact ⟨hy, by simp, fun hb => absurd rfl hb⟩
  | commit d x call l hstage hlock hcancel =>
    -- the executor of a settled callout finds `cc_cancel` set
    refine SettledWith.setStage h (fun _ _ => rfl) fun hy => ?_
    obtain ⟨-, -, hskip⟩ := h.called d (by rw [hstage]; exact hy)
    have hset := (hskip (by rw [hstage]; exact Option.some_ne_none _)).2
    rw [hcancel] at hset
    exact absurd hset Bool.false_ne_true
  | callLocked d x call hstage =>
    refine SettledWith.setStage h (fun d' hd' => Function.update_of_ne hd' _ _) fun hy => ?_
    rw [hstage]
    exact ⟨hy, by simp, fun hb => absurd rfl hb⟩
  | handlerReturns d x call hstage =>
    refine SettledWith.setStage h (fun _ _ => rfl) fun hy => ?_
    rw [hstage]
    exact ⟨hy, by simp, fun hb => absurd rfl hb⟩
  | finish d x =>
    rw [Settled, World.finish]
    split
    · exact SettledWith.setStage h (fun d' hd' => Function.update_of_ne hd' _ _) fun hy =>
        absurd hy (Option.some_ne_none c).symm
    · rw [(callouts_wakeWaiting _ d).1]
      refine SettledWith.wakeWaiting h fun d' hd' => ?_
      exact Function.update_of_ne hd' _ _
  | drainReturns d f =>
    rw [Settled, (callouts_wakeWaiting _ d).1]
    exact SettledWith.wakeWaiting h fun _ _ => rfl
  | wakeup d =>
    exact SettledWith.setStage h (fun _ _ => rfl) fun hy => absurd hy (Option.some_ne_none c).symm
  | reset a x sbt precision call direct =>
    have hframe := frame_calloutReset cfg w x sbt precision call direct
    rw [Settled, callouts_calloutReset, exec_calloutReset, hframe.stage]
    refine SettledWith.setCallout (SettledWith.setExec h fun d hd => ?_) fun heq => ?_
    · by_cases hdd : d = direct
      · simp only [cancelCurr, hdd, Function.update_self]
        rw [← hdd, hd, Bool.true_or]
      · simpa only [cancelCurr, Function.update_of_ne hdd] using hd
    · exact absurd (heq ▸ rfl) (ha direct)
  | stopTurn a x direct executing drain =>
    have hframe := frame_calloutStop cfg w x a direct executing drain
    rw [Settled, callouts_calloutStop, exec_calloutStop, hframe.stage]
    refine SettledWith.setCallout (SettledWith.setExec h fun d hd => ?_) fun heq => ?_
    · by_cases hdd : d = direct
      · rw [hdd, Function.update_self, stopExec, ← hdd, hd, Bool.true_or]
      · rwa [Function.update_of_ne hdd]
    · rw [heq, stopCallout, h.pending, Bool.false_and]
      exact ⟨rfl, rfl⟩
  | drainDone t x =>
    rw [Settled, callouts_drainDone, exec_drainDone, stage_drainDone]
    exact SettledWith.setCallout h fun heq => ⟨rfl, heq ▸ rfl⟩
  | drainUnlock t x d =>
    rw [Settled, callouts_drainDone, exec_drainDone, stage_drainDone]
    exact SettledWith.setCallout h fun heq => ⟨rfl, heq ▸ rfl⟩
  | drainWait t x d =>
    refine SettledWith.setExec h fun d' hd' => ?_
    dsimp only
    by_cases heq : d' = d
    · rw [heq, Function.update_self]
      exact heq ▸ hd'
    · rwa [Function.update_of_ne heq]
  | _ => exact h

/-- A settled callout is not called. -/
theorem calls_of_trans {a : Action Cid Lock Call Tid} (h : w.Settled busy c)
    (ht : Trans cfg w a w') : w'.calls c = w.calls c := by
  cases ht with
  | takeDirect s x =>
    refine calls_append [.expire x s.now, .enter x true] ?_ (by simp [Event.isCall])
    exact List.append_assoc _ _ _
  | expire s x => exact calls_append _ rfl (by simp [Event.isCall])
  | softclockTake x => exact calls_append _ rfl (by simp [Event.isCall])
  | callUnlocked d x call hstage hlock =>
    -- an executor calls without a lock only callouts that have none
    have hne : x ≠ c := by
      rintro rfl
      obtain ⟨-, -, hskip⟩ := h.called d (by rw [hstage]; rfl)
      have hsome := (hskip (by rw [hstage]; exact Option.some_ne_none _)).1
      rw [hlock] at hsome
      exact Bool.false_ne_true hsome
    exact calls_append _ rfl (by simpa [Event.isCall] using hne)
  | skip d x => exact calls_append _ rfl (by simp [Event.isCall])
  | callLocked d x call hstage =>
    have hne : x ≠ c := by
      rintro rfl
      exact (h.called d (by rw [hstage]; rfl)).2.1 call hstage
    exact calls_append _ rfl (by simpa [Event.isCall] using hne)
  | finish d x =>
    refine calls_append [.leave x d] ?_ (by simp [Event.isCall])
    rw [World.finish]
    split
    · rfl
    · exact log_wakeWaiting _ d
  | drainReturns d f =>
    exact calls_append [] ((log_wakeWaiting w d).trans (List.append_nil _).symm) (by simp)
  | reset a x sbt precision call direct =>
    exact calls_append _ (log_calloutReset cfg w x sbt precision call direct)
      (by simp [Event.isCall])
  | stopTurn a x direct executing drain =>
    exact calls_append _ (log_calloutStop cfg w x a direct executing drain)
      (by simp [Event.isCall])
  | drainDone t x => exact calls_append _ (log_drainDone cfg w x t) (by simp [Event.isCall])
  | drainUnlock t x d => exact calls_append _ (log_drainDone cfg _ x t) (by simp [Event.isCall])
  | _ => rfl

/-! ### Every run -/

open Transition

/-- As long as the callout is not armed it stays settled and is not called. -/
theorem settled_of_reach (hl : View.Linked cfg w.view) (hfit : w.Fit) (h : w.Settled busy c)
    (hrun : Reach (step cfg) (fun _ b => ∀ direct, b.arms ≠ some (c, direct)) w w') :
    View.Linked cfg w'.view ∧ w'.Fit ∧ w'.Settled busy c ∧ w'.calls c = w.calls c := by
  refine hrun.induct (I := fun w' => View.Linked cfg w'.view ∧ w'.Fit ∧ w'.Settled busy c ∧
    w'.calls c = w.calls c) ⟨hl, hfit, h, rfl⟩ ?_
  intro v v' b hv hb hs
  obtain ⟨hl, hfit, hset, hcalls⟩ := hv
  have ht := trans_of_step hs
  exact ⟨linked_of_trans hl ht, fit_of_trans hfit ht, settled_of_trans hl hset hb ht,
    (calls_of_trans hset ht).trans hcalls⟩

/-- **`callout_stop` stops.** Suppose that callouts are armed uniformly, and that when
`callout_stop` takes `cc_lock` the flag `CALLOUT_DIRECT` still is what it has read. If its caller
holds the callout's lock, or if it reports that the callout was not running, then whatever
happens afterwards, the callout is not called before it is armed again. -/
theorem not_called_of_stop {direct executing : Bool}
    (h : Reach (step cfg) (fun w b => b.Uniform mode w) (init lock returnUnlocked call) w)
    (hstop : w.stopping a = some ⟨c, direct, executing, none⟩)
    (hread : direct = (w.callouts c).direct) (hs : w.step cfg (.stopTurn a) = some w₁)
    (hcond : w.useLock a c = true ∨
      executing = false ∧ w.stopResult a c direct executing none ≠ 0)
    (hrun : Reach (step cfg) (fun _ b => ∀ direct, b.arms ≠ some (c, direct)) w₁ w₂) :
    w₂.calls c = w₁.calls c ∧ (w₂.callouts c).pending = false := by
  have hord := orderly_of_reach h
  have ht := trans_of_step hs
  have hset : w₁.Settled True c := by
    cases ht with
    | stopTurn _ _ _ _ _ hstop' hrunning =>
      obtain ⟨rfl, rfl, rfl, rfl⟩ := Stopping.mk.inj (Option.some.inj (hstop.symm.trans hstop'))
      exact hord.settled_of_stop hrunning hread hcond
  obtain ⟨-, -, hset, hcalls⟩ := settled_of_reach (linked_of_trans hord.linked ht)
    (fit_of_trans hord.fit ht) hset hrun
  exact ⟨hcalls, hset.pending⟩

/-- The callout 0 is armed, its time comes, and `softclock` is about to call it. -/
def aboutToCall : List (Action (Fin 1) Unit Unit (Fin 1)) :=
  [.configtimer 0 10, .lock (.thread 0) (), .reset (.thread 0) 0 5 0 () false,
    .unlock (.thread 0) (), .tick 20] ++ List.replicate 17 .scan ++
    [.swiSched, .softclock, .softclock]

/-- A thread that holds the lock stops the callout at the last moment. -/
theorem not_called_of_stop_locked :
    ∃ w : World (Fin 1) Unit Unit (Fin 1), w.calls 0 = 0 ∧ w.stage false = .returned 0 := by
  have hreach : Reach (step (calloutCallwheelInit 0 0 ()))
      (fun w b => b.Uniform (fun _ => false) w)
      (init (fun _ => some ()) (fun _ => false) () : World (Fin 1) Unit Unit (Fin 1)) _ :=
    reach_of_exec (aboutToCall ++ [.lock (.thread 0) (), .stop (.thread 0) 0 false none])
      (by decide) rfl
  have hrun := not_called_of_stop (a := .thread 0) (c := 0) hreach rfl rfl rfl (.inl rfl)
    (reach_of_exec [.unlock (.thread 0) (), .lockCallout false, .testCancel false] (by decide) rfl)
  exact ⟨_, hrun.1.trans rfl, rfl⟩

end settled

end World

end VosStack.Timeout
