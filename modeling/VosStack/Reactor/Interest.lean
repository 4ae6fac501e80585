import VosStack.Reactor.Bindings

/-!
# The repository and epoll

A descriptor should be bound exactly when it is registered with epoll, and epoll should watch for
the events of the bound mask: `Agree`.

`RegisterHandler` tells epoll only about descriptors that were not bound before, and a partial
`RemoveHandler` does not tell it at all; there is no `SO_EPOLL_CTL_MOD`. So a mask that is changed
while it is bound leaves the events of the old mask with epoll. For example a transport opened on
the descriptor of a connector, or a handler that gives up `WRITE_MASK`.

The tables agree **exactly as long as** no call changes the events of a bound descriptor, and
descriptors are closed after they were unbound.
-/

namespace VosStack.Handlers

open Transition

/-- Bound descriptors are registered, with the events of their masks, and no others are. -/
def Agree (M : Masks) (w : World) : Prop :=
  ∀ fd, w.epoll fd = (w.repository fd).map fun ele => M.interest ele.mask

/-- A call does not change the events of a bound descriptor, and what is closed is not bound. -/
def KeepsInterest (M : Masks) (w : World) : Action → Prop
  | .registerHandler _ fdNew aMask => ∀ ele ∈ w.repository fdNew,
      aMask &&& M.allEvents = 0#32 ∨ M.interest (aMask &&& M.allEvents) = M.interest ele.mask
  | .removeHandler _ fdNew aMask => ∀ ele ∈ w.repository fdNew,
      M.select ele.mask aMask = 0#32 ∨ M.interest (M.select ele.mask aMask) = M.interest ele.mask
  | .closeFd fd => w.repository fd = none
  | _ => True

instance (M : Masks) (w : World) : DecidablePred (KeepsInterest M w)
  | .registerHandler _ fdNew aMask =>
    inferInstanceAs (Decidable (∀ ele ∈ w.repository fdNew, aMask &&& M.allEvents = 0#32 ∨
      M.interest (aMask &&& M.allEvents) = M.interest ele.mask))
  | .removeHandler _ fdNew aMask =>
    inferInstanceAs (Decidable (∀ ele ∈ w.repository fdNew, M.select ele.mask aMask = 0#32 ∨
      M.interest (M.select ele.mask aMask) = M.interest ele.mask))
  | .closeFd fd => inferInstanceAs (Decidable (w.repository fd = none))
  | .openFd _ | .wait _ | .dispatch _ | .openPipe _ | .notifyHandler _ _ | .notifyInput |
    .notifyReturn | .inputReturn _ | .outputReturn _ | .closeReturn | .endBatch =>
    inferInstanceAs (Decidable True)

section

variable {M : Masks} {w w' : World}

theorem Quiet.keepsInterest {a : Action} (h : Quiet M w a) : KeepsInterest M w a := by
  cases a with
  | registerHandler aEh fdNew aMask =>
    intro ele hele
    rcases h ele hele with hzero | ⟨hmask, -⟩
    · exact .inl hzero
    · exact .inr (congrArg M.interest hmask)
  | removeHandler aEh fdNew aMask =>
    intro ele hele
    exact .inr (congrArg M.interest (h ele hele))
  | closeFd fd => exact absurd h id
  | _ => trivial

/-- Both tables change at one descriptor. -/
theorem agree_update_iff (h : Agree M w) {fd : ℤ} {o : Option CElement} {i : Option Interest}
    (hrepository : w'.repository = Function.update w.repository fd o)
    (hepoll : w'.epoll = Function.update w.epoll fd i) :
    Agree M w' ↔ i = o.map fun ele => M.interest ele.mask := by
  rw [Agree, hrepository, hepoll]
  constructor
  · intro hagree
    have hfd := hagree fd
    rwa [Function.update_self, Function.update_self] at hfd
  · intro hi fd'
    by_cases hfd : fd' = fd
    · subst hfd
      rw [Function.update_self, Function.update_self, hi]
    · rw [Function.update_of_ne hfd, Function.update_of_ne hfd, h fd']

/-- The mask of a bound descriptor changes, and epoll is not told. -/
theorem agree_rebind_iff (h : Agree M w) {fd : ℤ} {ele ele' : CElement}
    (hfind : w.repository fd = some ele)
    (hrepository : w'.repository = Function.update w.repository fd (some ele'))
    (hepoll : w'.epoll = w.epoll) :
    Agree M w' ↔ M.interest ele'.mask = M.interest ele.mask := by
  have hfd : w.epoll fd = some (M.interest ele.mask) := by
    rw [h fd, hfind, Option.map_some]
  rw [agree_update_iff h hrepository (hepoll.trans (Function.update_eq_self fd w.epoll).symm), hfd,
    Option.map_some, Option.some.injEq, eq_comm]

/-- **One step.** The tables agree after it exactly if it keeps the events. -/
theorem Change.agree_iff {a : Action} (hchange : Change M w a w') (h : Agree M w) :
    Agree M w' ↔ KeepsInterest M w a := by
  have hbound : ∀ {fd ele} {P : CElement → Prop}, w.repository fd = some ele →
      ((∀ ele' ∈ w.repository fd, P ele') ↔ P ele) := by
    intro fd ele P hfind
    rw [hfind]
    exact ⟨fun hall => hall ele rfl, fun hP ele' hele' => Option.some.inj hele' ▸ hP⟩
  cases hchange with
  | quiet hquiet hrepository hepoll =>
    refine iff_of_true ?_ hquiet.keepsInterest
    rw [Agree, hrepository, hepoll]
    exact h
  | closed fd hrepository hepoll =>
    rw [agree_update_iff h (hrepository.trans (Function.update_eq_self fd w.repository).symm)
      hepoll, eq_comm, Option.map_eq_none_iff]
    rfl
  | bound eh fd aMask hmask hfree hrepository hepoll =>
    refine iff_of_true ?_ fun ele hele => ?_
    · rw [agree_update_iff h hrepository hepoll, Option.map_some]
    · exact absurd (hfree.symm.trans hele) nofun
  | rebound fd ele aMask hmask hfind hrepository hepoll =>
    -- the mask is new and the events in epoll are not: the two have to agree by themselves
    rw [agree_rebind_iff h hfind hrepository hepoll, KeepsInterest, hbound hfind,
      or_iff_right hmask.1]
  | replaced eh fd ele aMask hmask hfind _ hrepository hepoll =>
    rw [agree_rebind_iff h hfind hrepository hepoll, KeepsInterest, hbound hfind,
      or_iff_right hmask.1]
  | reduced eh fd ele aMask hmask hfind hrepository hepoll =>
    rw [agree_rebind_iff h hfind hrepository hepoll, KeepsInterest, hbound hfind,
      or_iff_right hmask.1]
  | removed eh fd ele aMask hselect hfind hrepository hepoll =>
    refine iff_of_true ?_ ?_
    · rw [agree_update_iff h hrepository hepoll, Option.map_none]
    · rw [KeepsInterest, hbound hfind]
      exact .inl hselect
  | ended fd ele reason _ hquiet hfind hrepository hepoll =>
    refine iff_of_true ?_ hquiet.keepsInterest
    rw [agree_update_iff h hrepository hepoll, Option.map_none]

end

/-- **The repository and epoll** agree in every state of a run whose steps keep the events of bound
descriptors, and a step from there keeps them in agreement only if it does so too. -/
theorem agree_of_keepsInterest {M : Masks} {w : World}
    (h : Reach (step M) (KeepsInterest M) init w) :
    Agree M w ∧ ∀ a w', step M w a = some w' → (Agree M w' ↔ KeepsInterest M w a) := by
  have hagree : Agree M w := by
    refine h.induct_of (I := Agree M) (J := MasksOk M) (fun _ hs => masksOk_of_reach hs)
      (fun _ => rfl) fun s s' a hok hi hkeeps hs => ?_
    exact ((change_of_step hok hs).agree_iff hi).mpr hkeeps
  exact ⟨hagree, fun a w' hs => (change_of_step (masksOk_of_reach h) hs).agree_iff hagree⟩

/-- A handler is called and fails, its descriptor is closed and used again by another handler. -/
def reused : List Action :=
  [.openFd 5, .registerHandler 0 5 0xc, .wait [(5, ⟨true, false⟩)], .dispatch true,
    .inputReturn (-1), .closeFd 5, .openFd 5, .registerHandler 1 5 0x2, .closeReturn, .endBatch,
    .removeHandler 1 5 0x2]

theorem agree_of_keepsInterest_reused :
    ∃ w, exec (step oneBitMasks) init reused = some w ∧ w.repository 5 = none ∧
      Agree oneBitMasks w :=
  ⟨_, rfl, rfl, (agree_of_keepsInterest (reach_of_exec reused (by decide) rfl)).1⟩

/-- A transport is opened on the descriptor of its connector. -/
def openedOnConnector : List Action :=
  [.openFd 5, .registerHandler 0 5 0x2, .registerHandler 1 5 0xc]

/-- A handler gives up `WRITE_MASK`. -/
def writeGivenUp : List Action :=
  [.openFd 5, .registerHandler 0 5 0xc, .removeHandler 0 5 0x8]

/-- **Epoll keeps the events of the old mask.** The transport asks for input and is not watched for
it; the other handler is still watched for output. -/
theorem not_agree :
    ∃ w₁ w₂, exec (step oneBitMasks) init openedOnConnector = some w₁ ∧
      exec (step oneBitMasks) init writeGivenUp = some w₂ ∧
      w₁.epoll 5 = some ⟨false, true⟩ ∧ (w₁.repository 5).map CElement.mask = some 0xc ∧
      oneBitMasks.interest 0xc = ⟨true, true⟩ ∧
      w₂.epoll 5 = some ⟨true, true⟩ ∧ (w₂.repository 5).map CElement.mask = some 0x4 ∧
      oneBitMasks.interest 0x4 = ⟨true, false⟩ ∧
      ¬ Agree oneBitMasks w₁ ∧ ¬ Agree oneBitMasks w₂ :=
  ⟨_, _, rfl, rfl, rfl, rfl, rfl, rfl, rfl, rfl, fun h => absurd (h 5) (by decide),
    fun h => absurd (h 5) (by decide)⟩

end VosStack.Handlers
