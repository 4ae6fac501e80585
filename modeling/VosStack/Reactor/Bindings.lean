import VosStack.Reactor.Handlers

/-!
# What a step does to the bindings

Every step does one of eight things to the repository and to epoll, or nothing (`Change`). What
`RegisterHandler`, `RemoveHandler` and `ProcessHandleEvent` decide by arithmetic on masks is settled
here once: a bound mask is not zero and has only bits of `ALL_EVENTS_MASK` (`MaskOk`), so the
reactor, which takes all of these bits away, always unbinds and calls `OnClose`, and
`RemoveHandler`, which has no `SHOULD_CALL` left in its mask, never calls it.
-/

namespace VosStack.Handlers

open Transition

/-! ### Masks -/

/-- A mask that can be bound. -/
def MaskOk (M : Masks) (mask : MASK) : Prop := mask ≠ 0#32 ∧ mask &&& M.allEvents = mask

/-- What `RemoveHandler` with `aMask` leaves of a mask. -/
def Masks.select (M : Masks) (mask aMask : MASK) : MASK :=
  (mask &&& (aMask &&& M.allEvents)) ^^^ mask

section masks

variable {M : Masks} {mask : MASK}

private theorem or_and_left (a b : MASK) : (a ||| b) &&& a = a := by
  refine BitVec.eq_of_getLsbD_eq fun i _ => ?_
  rw [BitVec.getLsbD_and, BitVec.getLsbD_or]
  cases a.getLsbD i <;> simp

theorem and_allEvents_and (M : Masks) (mask : MASK) :
    (mask &&& M.allEvents) &&& M.allEvents = mask &&& M.allEvents := by
  rw [BitVec.and_assoc, BitVec.and_self]

/-- Nothing is left when all events are taken away. -/
theorem select_all (h : MaskOk M mask) :
    M.select mask (M.allEvents ||| M.shouldCall) = 0#32 := by
  rw [Masks.select, or_and_left, h.2, BitVec.xor_self]

theorem MaskOk.select (h : MaskOk M mask) {aMask : MASK} (hne : M.select mask aMask ≠ 0#32) :
    MaskOk M (M.select mask aMask) := by
  refine ⟨hne, BitVec.eq_of_getLsbD_eq fun i _ => ?_⟩
  have hi := congrArg (fun b => b.getLsbD i) h.2
  simp only [Masks.select, BitVec.getLsbD_and, BitVec.getLsbD_xor] at hi ⊢
  grind

theorem bitEnabled_allEvents_or (M : Masks) :
    bitEnabled (M.allEvents ||| M.shouldCall) M.shouldCall = true := by
  rw [bitEnabled, BitVec.or_comm, or_and_left]
  exact bne_iff_ne.mpr M.shouldCall_ne

theorem bitEnabled_and_allEvents (M : Masks) (mask : MASK) :
    bitEnabled (mask &&& M.allEvents) M.shouldCall = false := by
  rw [bitEnabled, BitVec.and_assoc, M.allEvents_shouldCall, BitVec.and_zero]
  rfl

end masks

/-! ### Changes -/

/-- A call of a handler's `OnInput` or `OnOutput`. -/
def Event.isCall : Event → Bool
  | .onInput _ | .onOutput _ => true
  | _ => false

/-- A close event, or a callback of the handler itself. -/
def Reason.Fits (eh : ℕ) : Reason → Prop
  | .closeEvent _ => True
  | .callback eh' => eh' = eh
  | .dropConnect => False

/-- The action does not ask for a change of the tables. -/
def Quiet (M : Masks) (w : World) : Action → Prop
  | .registerHandler aEh fdNew aMask => ∀ ele ∈ w.repository fdNew,
      aMask &&& M.allEvents = 0#32 ∨ aMask &&& M.allEvents = ele.mask ∧ aEh = ele.eh
  | .removeHandler _ fdNew aMask => ∀ ele ∈ w.repository fdNew, M.select ele.mask aMask = ele.mask
  | .closeFd _ => False
  | _ => True

/-- What a step does to the repository, to epoll and to the log. -/
inductive Change (M : Masks) (w : World) : Action → World → Prop
  /-- nothing, but a handler may be called -/
  | quiet {a : Action} {w' : World} (hquiet : Quiet M w a)
      (hrepository : w'.repository = w.repository) (hepoll : w'.epoll = w.epoll)
      (hnext : w'.next = w.next) (calls : List Event) (hcalls : ∀ e ∈ calls, e.isCall = true)
      (hlog : w'.log = w.log ++ calls) : Change M w a w'
  /-- a descriptor is closed -/
  | closed {w' : World} (fd : ℤ)
      (hrepository : w'.repository = w.repository)
      (hepoll : w'.epoll = Function.update w.epoll fd none)
      (hnext : w'.next = w.next) (hlog : w'.log = w.log) : Change M w (.closeFd fd) w'
  /-- a handler is bound to a free descriptor -/
  | bound {w' : World} (eh : ℕ) (fd : ℤ) (aMask : MASK) (hmask : MaskOk M (aMask &&& M.allEvents))
      (hfree : w.repository fd = none)
      (hrepository : w'.repository =
        Function.update w.repository fd (some ⟨eh, aMask &&& M.allEvents, w.next⟩))
      (hepoll : w'.epoll =
        Function.update w.epoll fd (some (M.interest (aMask &&& M.allEvents))))
      (hnext : w'.next = w.next + 1) (hlog : w'.log = w.log ++ [.bound w.next fd eh]) :
      Change M w (.registerHandler eh fd aMask) w'
  /-- a handler is registered again with another mask -/
  | rebound {w' : World} (fd : ℤ) (ele : CElement) (aMask : MASK)
      (hmask : MaskOk M (aMask &&& M.allEvents)) (hfind : w.repository fd = some ele)
      (hrepository : w'.repository =
        Function.update w.repository fd (some { ele with mask := aMask &&& M.allEvents }))
      (hepoll : w'.epoll = w.epoll) (hnext : w'.next = w.next) (hlog : w'.log = w.log) :
      Change M w (.registerHandler ele.eh fd aMask) w'
  /-- another handler takes the descriptor -/
  | replaced {w' : World} (eh : ℕ) (fd : ℤ) (ele : CElement) (aMask : MASK)
      (hmask : MaskOk M (aMask &&& M.allEvents)) (hfind : w.repository fd = some ele)
      (hne : ele.eh ≠ eh)
      (hrepository : w'.repository =
        Function.update w.repository fd (some ⟨eh, aMask &&& M.allEvents, w.next⟩))
      (hepoll : w'.epoll = w.epoll) (hnext : w'.next = w.next + 1)
      (hlog : w'.log = w.log ++ [.replaced ele.binding, .bound w.next fd eh]) :
      Change M w (.registerHandler eh fd aMask) w'
  /-- a part of a mask is removed -/
  | reduced {w' : World} (eh : ℕ) (fd : ℤ) (ele : CElement) (aMask : MASK)
      (hmask : MaskOk M (M.select ele.mask aMask)) (hfind : w.repository fd = some ele)
      (hrepository : w'.repository =
        Function.update w.repository fd (some { ele with mask := M.select ele.mask aMask }))
      (hepoll : w'.epoll = w.epoll) (hnext : w'.next = w.next) (hlog : w'.log = w.log) :
      Change M w (.removeHandler eh fd aMask) w'
  /-- the last bit of a mask is removed -/
  | removed {w' : World} (eh : ℕ) (fd : ℤ) (ele : CElement) (aMask : MASK)
      (hselect : M.select ele.mask aMask = 0#32) (hfind : w.repository fd = some ele)
      (hrepository : w'.repository = Function.update w.repository fd none)
      (hepoll : w'.epoll = Function.update w.epoll fd none)
      (hnext : w'.next = w.next) (hlog : w'.log = w.log ++ [.removed ele.binding]) :
      Change M w (.removeHandler eh fd aMask) w'
  /-- the reactor ends a binding and calls `OnClose` -/
  | ended {a : Action} {w' : World} (fd : ℤ) (ele : CElement) (reason : Reason)
      (hreason : reason.Fits ele.eh) (hquiet : Quiet M w a) (hfind : w.repository fd = some ele)
      (hrepository : w'.repository = Function.update w.repository fd none)
      (hepoll : w'.epoll = Function.update w.epoll fd none) (hnext : w'.next = w.next)
      (hlog : w'.log = w.log ++
        [.ended ele.binding reason, .onClose ele.binding fd ele.eh none none]) :
      Change M w a w'

/-- The masks that are bound are not empty. -/
def MasksOk (M : Masks) (w : World) : Prop :=
  ∀ fd ele, w.repository fd = some ele → MaskOk M ele.mask

section changes

variable {M : Masks} {w w' : World}

theorem change_registerHandler (aEh : ℕ) (fdNew : ℤ) (aMask : MASK) :
    Change M w (.registerHandler aEh fdNew aMask) (w.registerHandler M aEh fdNew aMask).1 := by
  rw [World.registerHandler]
  by_cases hzero : aMask &&& M.allEvents = 0#32
  · rw [if_pos hzero]
    exact .quiet (fun _ _ => .inl hzero) rfl rfl rfl [] nofun (List.append_nil _).symm
  have hmask : MaskOk M (aMask &&& M.allEvents) := ⟨hzero, and_allEvents_and M aMask⟩
  rw [if_neg hzero]
  cases hfind : w.repository fdNew with
  | none =>
    have hquiet : Quiet M w (.registerHandler aEh fdNew aMask) := by
      intro ele hele
      rw [hfind] at hele
      exact absurd hele nofun
    -- `EPOLL_CTL_ADD` fails for a closed descriptor and for one that is in the set
    by_cases hreg : w.isOpen fdNew = true ∧ w.epoll fdNew = none
    · simp only [World.onHandleRegister, if_pos hreg, World.bind, hfind]
      exact .bound aEh fdNew aMask hmask hfind rfl rfl rfl rfl
    · simp only [World.onHandleRegister, if_neg hreg]
      exact .quiet hquiet rfl rfl rfl [] nofun (List.append_nil _).symm
  | some ele =>
    by_cases hsame : aMask &&& M.allEvents = ele.mask ∧ aEh = ele.eh
    · simp only [if_pos hsame]
      refine .quiet (fun ele' hele' => ?_) rfl rfl rfl [] nofun (List.append_nil _).symm
      obtain rfl := Option.some.inj (hfind.symm.trans hele')
      exact .inr hsame
    · simp only [if_neg hsame, World.bind, hfind]
      -- `Bind` alone: epoll is not told about the new mask
      by_cases heh : ele.eh = aEh
      · subst heh
        rw [if_pos rfl]
        exact .rebound fdNew ele aMask hmask hfind rfl rfl rfl rfl
      · rw [if_neg heh]
        exact .replaced aEh fdNew ele aMask hmask hfind heh rfl rfl rfl rfl

theorem change_removeHandler (hok : MasksOk M w) (aEh : ℕ) (fdNew : ℤ) (aMask : MASK) :
    Change M w (.removeHandler aEh fdNew aMask) (w.removeHandler M aEh fdNew aMask).1 := by
  have hselect : ∀ mask, (mask &&& (aMask &&& M.allEvents &&& M.allEvents)) ^^^ mask =
      M.select mask aMask := by
    intro mask
    rw [and_allEvents_and, Masks.select]
  rw [World.removeHandler]
  by_cases hzero : aMask &&& M.allEvents = 0#32
  · rw [if_pos hzero]
    refine .quiet (fun ele _ => ?_) rfl rfl rfl [] nofun (List.append_nil _).symm
    rw [Masks.select, hzero, BitVec.and_zero, BitVec.zero_xor]
  rw [if_neg hzero]
  cases hfind : w.repository fdNew with
  | none =>
    refine .quiet (fun ele hele => ?_) rfl rfl rfl [] nofun (List.append_nil _).symm
    rw [hfind] at hele
    exact absurd hele nofun
  | some ele =>
    simp only [World.removeHandleWithoutFinding, hselect, bitEnabled_and_allEvents]
    by_cases hsame : M.select ele.mask aMask = ele.mask
    · rw [if_pos hsame]
      refine .quiet (fun ele' hele' => ?_) rfl rfl rfl [] nofun (List.append_nil _).symm
      obtain rfl := Option.some.inj (hfind.symm.trans hele')
      exact hsame
    rw [if_neg hsame]
    by_cases hnull : M.select ele.mask aMask = 0#32
    · rw [if_pos hnull]
      exact .removed aEh fdNew ele aMask hnull hfind rfl rfl rfl rfl
    · simp only [if_neg hnull, World.bind, hfind, if_true]
      exact .reduced aEh fdNew ele aMask ((hok fdNew ele hfind).select hnull) hfind rfl rfl rfl rfl

/-- What the reactor does to end a binding. -/
theorem removeAll_eq (hok : MasksOk M w) {fd : ℤ} {ele : CElement}
    (hfind : w.repository fd = some ele) (reason : Reason) :
    w.removeAll M fd ele reason =
      { (w.unBind fd).onHandleRemoved fd with
        pc := .close
        log := w.log ++
          [.ended ele.binding reason, .onClose ele.binding fd ele.eh none none] } := by
  have hmask := hok fd ele hfind
  have hselect := select_all hmask
  rw [Masks.select] at hselect
  rw [World.removeAll, World.removeHandleWithoutFinding]
  simp only [hselect, if_neg hmask.1.symm, if_true, bitEnabled_allEvents_or, World.bindingOf,
    World.unBind, World.onHandleRemoved, Function.update_self, Option.map_none]

/-- The tables and the log are the same. -/
structure Untouched (w v : World) : Prop where
  repository : v.repository = w.repository
  epoll : v.epoll = w.epoll
  next : v.next = w.next
  log : v.log = w.log

theorem Untouched.refl (w : World) : Untouched w w := ⟨rfl, rfl, rfl, rfl⟩

theorem Untouched.setPc {v : World} (h : Untouched w v) (pc : Pc) :
    Untouched w { v with pc } := ⟨h.repository, h.epoll, h.next, h.log⟩

theorem Untouched.masksOk {v : World} (h : Untouched w v) (hok : MasksOk M w) : MasksOk M v := by
  rwa [MasksOk, h.repository]

section untouched

variable {v : World} {a : Action} {fd : ℤ} {ele : CElement}

/-- Nothing changes. -/
theorem change_same (hquiet : Quiet M w a) (hv : Untouched w v) : Change M w a v :=
  .quiet hquiet hv.repository hv.epoll hv.next [] nofun (hv.log.trans (List.append_nil _).symm)

/-- A handler is called. -/
theorem change_call (hquiet : Quiet M w a) (hv : Untouched w v) {pc : Pc} {e : Event}
    (he : e.isCall = true) : Change M w a { v with pc, log := v.log ++ [e] } :=
  .quiet hquiet hv.repository hv.epoll hv.next [e] (List.forall_mem_singleton.mpr he)
    (congrArg (· ++ [e]) hv.log)

theorem change_removeAll (hok : MasksOk M w) (hquiet : Quiet M w a) (hv : Untouched w v)
    (hfind : v.repository fd = some ele) {reason : Reason} (hreason : reason.Fits ele.eh) :
    Change M w a (v.removeAll M fd ele reason) := by
  rw [removeAll_eq (hv.masksOk hok) hfind]
  refine .ended fd ele reason hreason hquiet (hv.repository ▸ hfind) ?_ ?_ hv.next ?_
  · exact congrArg (Function.update · fd none) hv.repository
  · exact congrArg (Function.update · fd none) hv.epoll
  · exact congrArg (· ++ _) hv.log

theorem change_onCallFailed (hok : MasksOk M w) (hquiet : Quiet M w a) (hv : Untouched w v)
    (fd : ℤ) (ele : CElement) : Change M w a (v.onCallFailed M fd ele (.callback ele.eh)) := by
  rw [World.onCallFailed]
  cases hfind : v.repository fd with
  | none => exact change_same hquiet (hv.setPc .loop)
  | some again =>
    dsimp only
    split
    · next heh => exact change_removeAll hok hquiet (hv.setPc .loop) hfind heh
    · exact change_same hquiet (hv.setPc .loop)

theorem change_output (hquiet : Quiet M w a) (hv : Untouched w v) (fd : ℤ) (ele : CElement)
    (mask : MASK) (collected : Option ℕ) :
    Change M w a (v.output M fd ele mask collected) := by
  rw [World.output]
  split
  · exact change_call hquiet hv rfl
  · exact change_same hquiet (hv.setPc .loop)

theorem change_processHandleEvent (hok : MasksOk M w) (hquiet : Quiet M w a) (hv : Untouched w v)
    (fd : ℤ) (aMask : MASK) (aIsNotify : Bool) (collected : Option ℕ) :
    Change M w a (v.processHandleEvent M fd aMask aIsNotify false collected) := by
  rw [World.processHandleEvent]
  cases hfind : v.repository fd with
  | none => exact change_same hquiet (hv.setPc .loop)
  | some ele =>
    dsimp only
    split
    · exact change_removeAll hok hquiet (hv.setPc .loop) hfind trivial
    split
    · exact change_same hquiet (hv.setPc .loop)
    rw [Bool.false_and, if_neg Bool.false_ne_true]
    split
    · exact change_call hquiet hv rfl
    · exact change_output hquiet hv fd ele _ collected

theorem change_notifyInput (hok : MasksOk M w) (hquiet : Quiet M w a) (hv : Untouched w v)
    (readHandle : ℤ) (bfNew : CBuffer) : Change M w a (v.notifyInput M readHandle bfNew) := by
  rw [World.notifyInput]
  split
  · exact change_same hquiet (hv.setPc .loop)
  · exact change_processHandleEvent hok hquiet hv _ _ true _

end untouched

/-- **What a step does.** -/
theorem change_of_step (hok : MasksOk M w) {a : Action} (hs : step M w a = some w') :
    Change M w a w' := by
  cases a with
  | registerHandler aEh fdNew aMask =>
    rw [step] at hs
    split at hs
    · exact absurd hs nofun
    · obtain rfl := Option.some.inj hs
      exact change_registerHandler aEh fdNew aMask
  | removeHandler aEh fdNew aMask =>
    rw [step] at hs
    split at hs
    · exact absurd hs nofun
    · obtain rfl := Option.some.inj hs
      exact change_removeHandler hok aEh fdNew aMask
  | openFd fd =>
    have hquiet : Quiet M w (.openFd fd) := trivial
    rw [step] at hs
    split at hs
    · exact absurd hs nofun
    · obtain rfl := Option.some.inj hs
      exact change_same hquiet ⟨rfl, rfl, rfl, rfl⟩
  | closeFd fd =>
    rw [step] at hs
    split at hs
    · exact absurd hs nofun
    · obtain rfl := Option.some.inj hs
      exact .closed fd rfl rfl rfl rfl
  | wait events =>
    have hquiet : Quiet M w (.wait events) := trivial
    rw [step] at hs
    split at hs
    · obtain rfl := Option.some.inj hs
      exact change_same hquiet ⟨rfl, rfl, rfl, rfl⟩
    · exact absurd hs nofun
  | dispatch connected =>
    have hquiet : Quiet M w (.dispatch connected) := trivial
    rw [step] at hs
    split at hs
    · obtain rfl := Option.some.inj hs
      refine change_processHandleEvent hok hquiet ?_ _ _ _ _
      exact ⟨rfl, rfl, rfl, rfl⟩
    · exact absurd hs nofun
  | openPipe readHandle =>
    have hquiet : Quiet M w (.openPipe readHandle) := trivial
    rw [step] at hs
    split at hs
    · exact absurd hs nofun
    · obtain rfl := Option.some.inj hs
      exact change_same hquiet ⟨rfl, rfl, rfl, rfl⟩
  | notifyHandler fd aMask =>
    have hquiet : Quiet M w (.notifyHandler fd aMask) := trivial
    rw [step] at hs
    split at hs
    · exact absurd hs nofun
    · obtain rfl := Option.some.inj hs
      exact change_same hquiet ⟨rfl, rfl, rfl, rfl⟩
  | notifyInput =>
    have hquiet : Quiet M w .notifyInput := trivial
    rw [step] at hs
    split at hs
    · split at hs
      · split at hs
        · obtain rfl := Option.some.inj hs
          exact change_same hquiet ⟨rfl, rfl, rfl, rfl⟩
        · obtain rfl := Option.some.inj hs
          refine change_notifyInput hok hquiet ?_ _ _
          exact ⟨rfl, rfl, rfl, rfl⟩
      · exact absurd hs nofun
    · exact absurd hs nofun
  | notifyReturn =>
    have hquiet : Quiet M w .notifyReturn := trivial
    rw [step] at hs
    split at hs
    · obtain rfl := Option.some.inj hs
      refine change_output hquiet ?_ _ _ _ _
      exact ⟨rfl, rfl, rfl, rfl⟩
    · exact absurd hs nofun
  | inputReturn nOnCall =>
    have hquiet : Quiet M w (.inputReturn nOnCall) := trivial
    rw [step] at hs
    split at hs
    · next fd ele maskActual collected _ =>
      split at hs
      · obtain rfl := Option.some.inj hs
        exact change_output hquiet (.refl w) fd ele maskActual collected
      · obtain rfl := Option.some.inj hs
        exact change_onCallFailed hok hquiet (.refl w) fd ele
    · exact absurd hs nofun
  | outputReturn nOnCall =>
    have hquiet : Quiet M w (.outputReturn nOnCall) := trivial
    rw [step] at hs
    split at hs
    · next fd ele _ =>
      split at hs
      · obtain rfl := Option.some.inj hs
        exact change_same hquiet ⟨rfl, rfl, rfl, rfl⟩
      · obtain rfl := Option.some.inj hs
        exact change_onCallFailed hok hquiet (.refl w) fd ele
    · exact absurd hs nofun
  | closeReturn =>
    have hquiet : Quiet M w .closeReturn := trivial
    rw [step] at hs
    split at hs
    · obtain rfl := Option.some.inj hs
      exact change_same hquiet ⟨rfl, rfl, rfl, rfl⟩
    · exact absurd hs nofun
  | endBatch =>
    have hquiet : Quiet M w .endBatch := trivial
    rw [step] at hs
    split at hs
    · obtain rfl := Option.some.inj hs
      exact change_same hquiet ⟨rfl, rfl, rfl, rfl⟩
    · exact absurd hs nofun

/-! ### The masks that are bound -/

theorem MasksOk.update (hok : MasksOk M w) {fd : ℤ} {o : Option CElement}
    (hnew : ∀ ele ∈ o, MaskOk M ele.mask)
    (hrepository : w'.repository = Function.update w.repository fd o) : MasksOk M w' := by
  intro fd' ele hele
  rw [hrepository] at hele
  by_cases hfd : fd' = fd
  · subst hfd
    rw [Function.update_self] at hele
    exact hnew ele hele
  · rw [Function.update_of_ne hfd] at hele
    exact hok fd' ele hele

theorem Change.masksOk {a : Action} (h : Change M w a w') (hok : MasksOk M w) : MasksOk M w' := by
  have hsome : ∀ {mask : MASK} {eh binding : ℕ}, MaskOk M mask →
      ∀ ele ∈ some (CElement.mk eh mask binding), MaskOk M ele.mask := by
    intro mask eh binding hmask ele hele
    obtain rfl := Option.some.inj hele
    exact hmask
  have hnone : ∀ ele ∈ (none : Option CElement), MaskOk M ele.mask :=
    fun _ hele => absurd hele nofun
  cases h with
  | quiet _ hrepository => exact fun fd ele hele => hok fd ele (hrepository ▸ hele)
  | closed _ hrepository => exact fun fd ele hele => hok fd ele (hrepository ▸ hele)
  | bound _ _ _ hmask _ hrepository => exact hok.update (hsome hmask) hrepository
  | rebound _ _ _ hmask _ hrepository => exact hok.update (hsome hmask) hrepository
  | replaced _ _ _ _ hmask _ _ hrepository => exact hok.update (hsome hmask) hrepository
  | reduced _ _ _ _ hmask _ hrepository => exact hok.update (hsome hmask) hrepository
  | removed _ _ _ _ _ _ hrepository => exact hok.update hnone hrepository
  | ended _ _ _ _ _ _ hrepository => exact hok.update hnone hrepository

/-- In every run, the masks that are bound are not empty. -/
theorem masksOk_of_reach {ok : World → Action → Prop} (h : Reach (step M) ok init w) :
    MasksOk M w :=
  h.induct (I := MasksOk M) (fun _ _ hele => absurd hele nofun)
    fun _ _ _ hok _ hs => (change_of_step hok hs).masksOk hok

end changes

end VosStack.Handlers
