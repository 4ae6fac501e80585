import VosStack.Reactor.Bindings
import VosStack.Table.Index

/-!
# How bindings end

Over every run in which no two handlers use the same descriptor at once, the log says everything
about a binding in at most three entries: it is bound, and then either removed by `RemoveHandler`,
or ended by the reactor and told so by one `OnClose`, when the descriptor has no handler and is not
registered with epoll any more.

At any moment a binding is in one of four stages (`Stage`), and its entries in the log are a
function of its stage (`Stage.history`). One step changes the stage of at most one binding.
-/

namespace VosStack.Handlers

open Transition Table

/-! ### The contract -/

/-- The entry is about the binding `b`. -/
def Event.about (b : ℕ) : Event → Bool
  | .bound c _ _ | .replaced c | .removed c | .ended c _ | .onClose c _ _ _ _ => c == b
  | .onInput _ | .onOutput _ => false

/-- What has happened to the binding `b`. -/
def World.history (w : World) (b : ℕ) : List Event := w.log.filter (Event.about b)

/-- Removed, without `OnClose`; or ended by the reactor, with one `OnClose` after the descriptor was
unbound and deleted from epoll. -/
def Ended (w : World) (b : ℕ) : Prop :=
  ∃ fd eh, w.history b = [.bound b fd eh, .removed b] ∨
    ∃ reason : Reason, reason.Fits eh ∧
      w.history b = [.bound b fd eh, .ended b reason, .onClose b fd eh none none]

structure EndingsOk (w : World) : Prop where
  /-- nothing has happened to a binding that is there -/
  bound : ∀ fd ele, w.repository fd = some ele →
    w.history ele.binding = [.bound ele.binding fd ele.eh]
  /-- a binding that is not there any more has ended in one of the two ways -/
  ended : ∀ b < w.next, (∀ fd ele, w.repository fd = some ele → ele.binding ≠ b) → Ended w b
  /-- there is nothing else in the log -/
  unborn : ∀ b, w.next ≤ b → w.history b = []

/-- No two handlers use the same descriptor at once. -/
def OneHandler (w : World) : Action → Prop
  | .registerHandler aEh fdNew _ | .removeHandler aEh fdNew _ =>
    ∀ ele ∈ w.repository fdNew, ele.eh = aEh
  | _ => True

instance (w : World) : DecidablePred (OneHandler w)
  | .registerHandler aEh fdNew _ | .removeHandler aEh fdNew _ =>
    inferInstanceAs (Decidable (∀ ele ∈ w.repository fdNew, ele.eh = aEh))
  | .openFd _ | .closeFd _ | .wait _ | .dispatch _ | .openPipe _ | .notifyHandler _ _ |
    .notifyInput | .notifyReturn | .inputReturn _ | .outputReturn _ | .closeReturn | .endBatch =>
    inferInstanceAs (Decidable True)

/-! ### Stages -/

inductive Stage
  | unborn
  | live (fd : ℤ) (eh : ℕ)
  | removed (fd : ℤ) (eh : ℕ)
  | ended (fd : ℤ) (eh : ℕ) (reason : Reason) (hreason : reason.Fits eh)

def Stage.history (b : ℕ) : Stage → List Event
  | .unborn => []
  | .live fd eh => [.bound b fd eh]
  | .removed fd eh => [.bound b fd eh, .removed b]
  | .ended fd eh reason _ => [.bound b fd eh, .ended b reason, .onClose b fd eh none none]

/-- The descriptor of a binding that is there. -/
def Stage.fd : Stage → Option ℤ
  | .live fd _ => some fd
  | _ => none

/-- The bindings are in these stages. -/
structure Staged (w : World) (stage : ℕ → Stage) : Prop where
  history : ∀ b, w.history b = (stage b).history b
  unborn : ∀ b, stage b = .unborn ↔ w.next ≤ b
  index : Index (Option.map CElement.binding ∘ w.repository) (Stage.fd ∘ stage)
  find : ∀ fd ele, w.repository fd = some ele → stage ele.binding = .live fd ele.eh

section stages

variable {M : Masks} {w w' : World} {stage : ℕ → Stage}

theorem Staged.contract (h : Staged w stage) : EndingsOk w where
  bound fd ele hele := by
    rw [h.history, h.find fd ele hele]
    rfl
  ended b hb hnot := by
    cases hstage : stage b with
    | unborn => exact absurd ((h.unborn b).mp hstage) (Nat.not_le.mpr hb)
    | live fd eh =>
      have hfd : (Stage.fd ∘ stage) b = some fd := congrArg Stage.fd hstage
      obtain ⟨ele, hele, hbinding⟩ := Option.map_eq_some_iff.mp ((h.index b fd).mp hfd)
      exact absurd hbinding (hnot fd ele hele)
    | removed fd eh =>
      refine ⟨fd, eh, .inl ?_⟩
      rw [h.history, hstage]
      rfl
    | ended fd eh reason hreason =>
      refine ⟨fd, eh, .inr ⟨reason, hreason, ?_⟩⟩
      rw [h.history, hstage]
      rfl
  unborn b hb := by
    rw [h.history, (h.unborn b).mpr hb]
    rfl

theorem staged_init : Staged init fun _ => .unborn where
  history _ := rfl
  unborn b := iff_of_true rfl (Nat.zero_le b)
  index := index_none
  find _ _ hele := absurd hele nofun

/-- No binding changes its stage. -/
theorem Staged.same (h : Staged w stage) (hnext : w'.next = w.next)
    (hhistory : ∀ b, w'.history b = w.history b)
    (hrepository : w'.repository = w.repository) : Staged w' stage where
  history b := (hhistory b).trans (h.history b)
  unborn b := hnext ▸ h.unborn b
  index := hrepository ▸ h.index
  find := hrepository ▸ h.find

/-- The mask of a binding changes. -/
theorem Staged.setMask (h : Staged w stage) {fd : ℤ} {ele : CElement} {mask : MASK}
    (hfind : w.repository fd = some ele)
    (hrepository : w'.repository = Function.update w.repository fd (some { ele with mask }))
    (hnext : w'.next = w.next) (hlog : w'.log = w.log) : Staged w' stage := by
  refine ⟨fun b => ?_, fun b => hnext ▸ h.unborn b, ?_, fun fd' ele' hele' => ?_⟩
  · rw [World.history, hlog]
    exact h.history b
  · have hsame : some ele.binding = (Option.map CElement.binding ∘ w.repository) fd := by
      rw [Function.comp_apply, hfind, Option.map_some]
    rw [hrepository, Function.comp_update, Option.map_some, hsame, Function.update_eq_self]
    exact h.index
  · rw [hrepository] at hele'
    by_cases hfd : fd' = fd
    · subst hfd
      rw [Function.update_self] at hele'
      obtain rfl := Option.some.inj hele'
      exact h.find fd' ele hfind
    · rw [Function.update_of_ne hfd] at hele'
      exact h.find fd' ele' hele'

/-- A binding leaves the repository. -/
theorem Staged.leave (h : Staged w stage) {fd : ℤ} {ele : CElement} {s : Stage} {es : List Event}
    (hfind : w.repository fd = some ele) (hunborn : s ≠ .unborn) (hfd : s.fd = none)
    (hhistory : s.history ele.binding = .bound ele.binding fd ele.eh :: es)
    (hes : ∀ e ∈ es, ∀ b, e.about b = (ele.binding == b))
    (hrepository : w'.repository = Function.update w.repository fd none)
    (hnext : w'.next = w.next) (hlog : w'.log = w.log ++ es) :
    Staged w' (Function.update stage ele.binding s) := by
  have hstage := h.find fd ele hfind
  have hlabel : (Option.map CElement.binding ∘ w.repository) fd = some ele.binding := by
    rw [Function.comp_apply, hfind, Option.map_some]
  refine ⟨fun b => ?_, fun b => ?_, ?_, fun fd' ele' hele' => ?_⟩
  · rw [World.history, hlog, List.filter_append, ← World.history, h.history]
    by_cases hb : b = ele.binding
    · subst hb
      rw [Function.update_self, hstage, hhistory]
      exact congrArg _ (List.filter_eq_self.mpr fun e he => (hes e he _).trans (beq_self_eq_true _))
    · rw [Function.update_of_ne hb, List.filter_eq_nil_iff.mpr, List.append_nil]
      intro e he habout
      rw [hes e he, beq_iff_eq] at habout
      exact hb habout.symm
  -- no number is given out twice: a binding that has left stays born
  · rw [hnext, ← h.unborn]
    by_cases hb : b = ele.binding
    · subst hb
      rw [Function.update_self, hstage]
      exact iff_of_false hunborn nofun
    · rw [Function.update_of_ne hb]
  · rw [hrepository, Function.comp_update, Function.comp_update, hfd]
    exact h.index.remove hlabel
  · rw [hrepository] at hele'
    by_cases hfd' : fd' = fd
    · subst hfd'
      rw [Function.update_self] at hele'
      exact absurd hele' nofun
    · rw [Function.update_of_ne hfd'] at hele'
      have hne : ele'.binding ≠ ele.binding := by
        intro heq
        refine hfd' (h.index.unique ?_ hlabel)
        rw [Function.comp_apply, hele', Option.map_some, heq]
      rw [Function.update_of_ne hne]
      exact h.find fd' ele' hele'

/-- A binding begins. -/
theorem Staged.begin (h : Staged w stage) {fd : ℤ} {eh : ℕ} {mask : MASK}
    (hfree : w.repository fd = none)
    (hrepository : w'.repository = Function.update w.repository fd (some ⟨eh, mask, w.next⟩))
    (hnext : w'.next = w.next + 1) (hlog : w'.log = w.log ++ [.bound w.next fd eh]) :
    Staged w' (Function.update stage w.next (.live fd eh)) := by
  have hnew : stage w.next = .unborn := (h.unborn w.next).mpr (Nat.le_refl _)
  refine ⟨fun b => ?_, fun b => ?_, ?_, fun fd' ele hele => ?_⟩
  · rw [World.history, hlog, List.filter_append, ← World.history, h.history]
    by_cases hb : b = w.next
    · subst hb
      rw [Function.update_self, hnew]
      simp [Stage.history, Event.about]
    · rw [Function.update_of_ne hb]
      simp [Event.about, Ne.symm hb]
  · rw [hnext]
    by_cases hb : b = w.next
    · subst hb
      rw [Function.update_self]
      exact iff_of_false nofun (Nat.not_succ_le_self _)
    · rw [Function.update_of_ne hb, h.unborn]
      omega
  · rw [hrepository, Function.comp_update, Function.comp_update]
    refine h.index.insert ?_ ?_
    · rw [Function.comp_apply, hfree, Option.map_none]
    · rw [Function.comp_apply, hnew]
      rfl
  · rw [hrepository] at hele
    by_cases hfd : fd' = fd
    · subst hfd
      rw [Function.update_self] at hele
      obtain rfl := Option.some.inj hele
      exact Function.update_self ..
    · rw [Function.update_of_ne hfd] at hele
      have hstage := h.find fd' ele hele
      have hne : ele.binding ≠ w.next := by
        intro heq
        rw [heq, hnew] at hstage
        exact absurd hstage nofun
      rw [Function.update_of_ne hne]
      exact hstage

/-- **One step** changes the stage of at most one binding. -/
theorem Change.staged {a : Action} (hchange : Change M w a w') (hone : OneHandler w a)
    (h : Staged w stage) : ∃ stage', Staged w' stage' := by
  cases hchange with
  | quiet _ hrepository _ hnext calls hcalls hlog =>
    have hnil : ∀ b, calls.filter (Event.about b) = [] := by
      refine fun b => List.filter_eq_nil_iff.mpr fun e he habout => ?_
      have hcall := hcalls e he
      cases e with
      | onInput | onOutput => exact Bool.false_ne_true habout
      | _ => exact Bool.false_ne_true hcall
    refine ⟨stage, h.same hnext (fun b => ?_) hrepository⟩
    rw [World.history, hlog, List.filter_append, hnil, List.append_nil, World.history]
  | closed fd hrepository _ hnext hlog =>
    refine ⟨stage, h.same hnext (fun b => ?_) hrepository⟩
    rw [World.history, hlog, World.history]
  | bound eh fd aMask _ hfree hrepository _ hnext hlog =>
    exact ⟨_, h.begin hfree hrepository hnext hlog⟩
  | rebound fd ele aMask _ hfind hrepository _ hnext hlog =>
    exact ⟨stage, h.setMask hfind hrepository hnext hlog⟩
  -- excluded: `Bind` would end the binding of the first handler without telling it
  | replaced eh fd ele aMask _ hfind hne => exact absurd (hone ele hfind) hne
  | reduced eh fd ele aMask _ hfind hrepository _ hnext hlog =>
    exact ⟨stage, h.setMask hfind hrepository hnext hlog⟩
  | removed eh fd ele aMask _ hfind hrepository _ hnext hlog =>
    refine ⟨_, h.leave (s := .removed fd ele.eh) hfind nofun rfl rfl ?_ hrepository hnext hlog⟩
    simp [Event.about]
  | ended fd ele reason hreason _ hfind hrepository _ hnext hlog =>
    refine ⟨_, h.leave (s := .ended fd ele.eh reason hreason) hfind nofun rfl rfl ?_ hrepository
      hnext hlog⟩
    simp [Event.about]

end stages

/-- **How bindings end.** In every run in which no two handlers use the same descriptor at once,
a binding that ends is removed, without `OnClose`, or ended by the reactor, with one `OnClose`. -/
theorem endingsOk (M : Masks) {w : World} (h : Reach (step M) OneHandler init w) :
    EndingsOk w := by
  have hstaged : ∃ stage, Staged w stage := by
    refine h.induct_of (I := fun w => ∃ stage, Staged w stage) (J := MasksOk M)
      (fun _ hs => masksOk_of_reach hs) ⟨_, staged_init⟩ fun s s' a hok hi hone hs => ?_
    obtain ⟨stage, hstage⟩ := hi
    exact (change_of_step hok hs).staged hone hstage
  obtain ⟨stage, hstage⟩ := hstaged
  exact hstage.contract

/-- A handler removes itself in `OnInput`, registers itself again and fails; another one gives up
its mask bit by bit; a third one fails when it is notified. -/
def fails : List Action :=
  [.openPipe 3, .openFd 5, .openFd 6, .openFd 7, .registerHandler 0 5 0x4,
    .registerHandler 1 6 0xc, .wait [(5, ⟨true, false⟩)], .dispatch true, .removeHandler 0 5 0x4,
    .registerHandler 0 5 0x8, .inputReturn (-1), .closeReturn, .endBatch, .removeHandler 1 6 0x4,
    .removeHandler 1 6 0x8, .registerHandler 2 3 0x4, .registerHandler 3 7 0x8,
    .notifyHandler 7 0x8, .wait [(3, ⟨true, false⟩)], .dispatch true, .notifyInput,
    .outputReturn (-1), .closeReturn, .notifyReturn, .endBatch]

theorem endingsOk_fails :
    ∃ w, exec (step oneBitMasks) init fails = some w ∧
      w.history 0 = [.bound 0 5 0, .removed 0] ∧
      w.history 1 = [.bound 1 6 1, .removed 1] ∧
      w.history 2 = [.bound 2 5 0, .ended 2 (.callback 0), .onClose 2 5 0 none none] ∧
      w.history 4 = [.bound 4 7 3, .ended 4 (.callback 3), .onClose 4 7 3 none none] ∧
      EndingsOk w :=
  ⟨_, rfl, rfl, rfl, rfl, rfl, endingsOk oneBitMasks (reach_of_exec fails (by decide) rfl)⟩

end VosStack.Handlers
