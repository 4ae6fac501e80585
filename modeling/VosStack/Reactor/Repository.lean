import VosStack.Reactor.Bindings
import VosStack.Table.Index

/-!
# The repository, seen by one handler

A handler shares the repository with others. Which of its bindings are left after `RegisterHandler`
and `RemoveHandler`, its own and those of others: `RegisterHandler` leaves the repository or binds
the handler with the mask that it was given, and `RemoveHandler` touches one descriptor, whose
binding it removes or reduces, whoever is bound there.
-/

namespace VosStack.Handlers

/-- The descriptor is bound to the handler. -/
def World.isBound (w : World) (eh : ℕ) (fd : ℤ) : Bool := (w.repository fd).any (·.eh = eh)

/-- What other handlers do. -/
inductive Other
  | registerHandler (aEh : ℕ) (fd : ℤ) (aMask : MASK)
  | removeHandler (aEh : ℕ) (fd : ℤ) (aMask : MASK)
  /-- the reactor ends a binding -/
  | unBind (fd : ℤ)
  | openFd (fd : ℤ)
  | closeFd (fd : ℤ)
  deriving DecidableEq, Repr

def World.other (M : Masks) (w : World) : Other → World
  | .registerHandler aEh fd aMask => (w.registerHandler M aEh fd aMask).1
  | .removeHandler aEh fd aMask => (w.removeHandler M aEh fd aMask).1
  | .unBind fd => (w.unBind fd).onHandleRemoved fd
  | .openFd fd => { w with isOpen := Function.update w.isOpen fd true }
  | .closeFd fd => { w.onHandleRemoved fd with isOpen := Function.update w.isOpen fd false }

/-- No descriptor is bound to the handler. -/
def World.Free (w : World) (eh : ℕ) : Prop :=
  ∀ fd ele, w.repository fd = some ele → ele.eh ≠ eh

/-- A mask has events, and only those of `m`. -/
def Among (mask m : MASK) : Prop := mask &&& m = mask ∧ mask ≠ 0#32

/-- The bindings of `w'` are bindings of `w`, with the same handlers and not more events. -/
def World.Within (w' w : World) : Prop :=
  ∀ fd ele', w'.repository fd = some ele' → ∃ ele, w.repository fd = some ele ∧
    ele.eh = ele'.eh ∧ ∀ m, Among ele.mask m → Among ele'.mask m

variable {M : Masks} {w w' : World} {eh : ℕ} {fd : ℤ} {mask : MASK}

theorem isBound_iff : w.isBound eh fd = true ↔ ∃ ele, w.repository fd = some ele ∧ ele.eh = eh := by
  rw [World.isBound, Option.any_eq_true]
  simp only [decide_eq_true_eq]

theorem World.Free.isBound (h : w.Free eh) (fd : ℤ) : w.isBound eh fd = false := by
  refine eq_false_of_ne_true fun htrue => ?_
  obtain ⟨ele, hele, heh⟩ := isBound_iff.mp htrue
  exact h fd ele hele heh

theorem bind_frame : (w.bind fd eh mask).1.isOpen = w.isOpen ∧
    ∃ binding, (w.bind fd eh mask).1.repository =
      Function.update w.repository fd (some ⟨eh, mask, binding⟩) := by
  rw [World.bind]
  split
  · exact ⟨rfl, w.next, rfl⟩
  · next old _ =>
    split
    · exact ⟨rfl, old.binding, rfl⟩
    · exact ⟨rfl, w.next, rfl⟩

/-! ### `RegisterHandler` -/

/-- What `RegisterHandler` does to the bindings, and what it then returns. -/
inductive Registered (M : Masks) (w : World) (eh : ℕ) (fd : ℤ) (mask : MASK) (w' : World)
    (rv : CAWResult) : Prop
  | same (hsame : w' = w)
  | bound (binding : ℕ) (hne : mask &&& M.allEvents ≠ 0#32) (hopen : w'.isOpen = w.isOpen)
      (hrepository : w'.repository =
        Function.update w.repository fd (some ⟨eh, mask &&& M.allEvents, binding⟩))
      (hrv : rv = .ok ∨ rv = .found)

theorem bind_rv : (w.bind fd eh mask).2 = .ok ∨ (w.bind fd eh mask).2 = .found := by
  rw [World.bind]
  split
  · exact .inl rfl
  · split
    · exact .inr rfl
    · exact .inr rfl

theorem registered_registerHandler (M : Masks) (w : World) (eh : ℕ) (fd : ℤ) (mask : MASK) :
    Registered M w eh fd mask (w.registerHandler M eh fd mask).1
      (w.registerHandler M eh fd mask).2 := by
  unfold World.registerHandler
  dsimp only
  split
  · exact .same rfl
  next hne =>
  split
  · split
    · exact .same rfl
    · next w₁ hreg =>
      -- epoll is told, which does not concern the repository
      rw [World.onHandleRegister, Option.ite_none_right_eq_some] at hreg
      cases hreg.2
      obtain ⟨hopen, binding, hrepository⟩ := bind_frame
      exact .bound binding hne hopen hrepository bind_rv
  · split
    · exact .same rfl
    · obtain ⟨hopen, binding, hrepository⟩ := bind_frame
      exact .bound binding hne hopen hrepository bind_rv

theorem Registered.isOpen {rv : CAWResult} (h : Registered M w eh fd mask w' rv) :
    w'.isOpen = w.isOpen := by
  cases h with
  | same hsame => rw [hsame]
  | bound _ _ hopen => exact hopen

/-- After `RegisterHandler` of a handler that was not bound only that descriptor is bound to it. -/
theorem Registered.of_free {rv : CAWResult} (h : Registered M w eh fd mask w' rv)
    (hfree : w.Free eh) {fd' : ℤ} {ele : CElement} (hele : w'.repository fd' = some ele)
    (heh : ele.eh = eh) : fd' = fd ∧ Among ele.mask (mask &&& M.allEvents) := by
  cases h with
  | same hsame =>
    rw [hsame] at hele
    exact absurd heh (hfree fd' ele hele)
  | bound binding hne _ hrepository =>
    rw [hrepository] at hele
    rcases Table.update_cases hele with ⟨rfl, hsome⟩ | ⟨-, hele⟩
    · cases hsome
      exact ⟨rfl, BitVec.and_self, hne⟩
    · exact absurd heh (hfree fd' ele hele)

/-! ### `RemoveHandler` -/

/-- What `RemoveHandler` does to the binding of the descriptor, whoever is bound. -/
inductive Removed (M : Masks) (w : World) (fd : ℤ) (mask : MASK) (w' : World) : Prop
  /-- the binding has none of the events -/
  | same (hsame : ∀ ele, w.repository fd = some ele → M.select ele.mask mask = ele.mask)
      (hrepository : w'.repository = w.repository)
  | removed (ele : CElement) (hfind : w.repository fd = some ele)
      (hrepository : w'.repository = Function.update w.repository fd none)
  | reduced (ele : CElement) (binding : ℕ) (hfind : w.repository fd = some ele)
      (hselect : M.select ele.mask mask ≠ 0#32)
      (hrepository : w'.repository =
        Function.update w.repository fd (some ⟨ele.eh, M.select ele.mask mask, binding⟩))

theorem removed_removeHandler (M : Masks) (w : World) (eh : ℕ) (fd : ℤ) (mask : MASK) :
    Removed M w fd mask (w.removeHandler M eh fd mask).1 := by
  rw [World.removeHandler]
  split
  · next hzero =>
    refine .same (fun ele _ => ?_) rfl
    rw [Masks.select, hzero, BitVec.and_zero, BitVec.zero_xor]
  split
  · next hnone =>
    refine .same (fun ele hele => ?_) rfl
    rw [hnone] at hele
    contradiction
  · next ele hele =>
    rw [World.removeHandleWithoutFinding, and_allEvents_and, ← Masks.select]
    dsimp only
    split
    · next hsame =>
      refine .same (fun ele' hele' => ?_) rfl
      rw [hele] at hele'
      cases hele'
      exact hsame
    split
    · split
      · exact .removed ele hele rfl
      · exact .removed ele hele rfl
    · next hselect =>
      obtain ⟨binding, hbind⟩ :
          ∃ binding, (w.bind fd ele.eh (M.select ele.mask mask)).1.repository =
            Function.update w.repository fd (some ⟨ele.eh, M.select ele.mask mask, binding⟩) :=
        bind_frame.2
      exact .reduced ele binding hele hselect hbind

theorem removeHandler_isOpen (M : Masks) (w : World) (eh : ℕ) (fd : ℤ) (mask : MASK) :
    (w.removeHandler M eh fd mask).1.isOpen = w.isOpen := by
  rw [World.removeHandler]
  split
  · rfl
  split
  · rfl
  · rw [World.removeHandleWithoutFinding]
    dsimp only
    split
    · rfl
    split
    · split
      · rfl
      · rfl
    · exact bind_frame.1

/-- Nothing is left of a binding when all its events are removed. -/
theorem Removed.eq_none (h : Removed M w fd mask w') {ele : CElement}
    (hfind : w.repository fd = some ele) (hall : Among ele.mask (mask &&& M.allEvents)) :
    w'.repository fd = none := by
  have hselect : M.select ele.mask mask = 0#32 := by
    rw [Masks.select, hall.1, BitVec.xor_self]
  cases h with
  | same hsame _ =>
    have heq := hsame ele hfind
    rw [hselect] at heq
    exact absurd heq.symm hall.2
  | removed _ _ hrepository => rw [hrepository, Function.update_self]
  | reduced ele' _ hfind' hselect' _ =>
    rw [hfind] at hfind'
    cases hfind'
    exact absurd hselect hselect'

theorem select_and (M : Masks) (m mask : MASK) : M.select m mask &&& m = M.select m mask := by
  rw [Masks.select]
  refine BitVec.eq_of_getLsbD_eq fun i _ => ?_
  simp only [BitVec.getLsbD_and, BitVec.getLsbD_xor]
  cases m.getLsbD i <;> simp

theorem within_refl (h : w'.repository = w.repository) : World.Within w' w := by
  intro fd ele hele
  rw [h] at hele
  exact ⟨ele, hele, rfl, fun _ => id⟩

theorem within_none (h : w'.repository = Function.update w.repository fd none) :
    World.Within w' w := by
  intro fd' ele hele
  rw [h] at hele
  rcases Table.update_cases hele with ⟨-, hnone⟩ | ⟨-, hele⟩
  · contradiction
  · exact ⟨ele, hele, rfl, fun _ => id⟩

theorem Removed.within (h : Removed M w fd mask w') : World.Within w' w := by
  cases h with
  | same _ hrepository => exact within_refl hrepository
  | removed _ _ hrepository => exact within_none hrepository
  | reduced ele _ hfind hselect hrepository =>
    intro fd' ele' hele'
    rw [hrepository] at hele'
    rcases Table.update_cases hele' with ⟨rfl, hsome⟩ | ⟨-, hele'⟩
    · cases hsome
      refine ⟨ele, hfind, rfl, fun m hm => ⟨?_, hselect⟩⟩
      rw [← select_and M ele.mask mask, BitVec.and_assoc, hm.1]
    · exact ⟨ele', hele', rfl, fun _ => id⟩

/-- `RemoveHandler` of the one descriptor that is bound to the handler. -/
theorem Removed.free (h : Removed M w fd mask w')
    (hbound : ∀ fd' ele, w.repository fd' = some ele → ele.eh = eh →
      fd' = fd ∧ Among ele.mask (mask &&& M.allEvents)) : w'.Free eh := by
  intro fd' ele' hele' heh
  obtain ⟨ele, hele, hsame, -⟩ := h.within fd' ele' hele'
  obtain ⟨rfl, hall⟩ := hbound fd' ele hele (hsame.trans heh)
  rw [h.eq_none hele hall] at hele'
  contradiction

/-! ### Other handlers -/

/-- Other handlers do not add a binding of the handler. -/
def Other.Apart (eh : ℕ) : Other → Prop
  | .registerHandler aEh _ _ => aEh ≠ eh
  | _ => True

instance (eh : ℕ) : DecidablePred (Other.Apart eh)
  | .registerHandler aEh _ _ => inferInstanceAs (Decidable (aEh ≠ eh))
  | .removeHandler .. | .unBind _ | .openFd _ | .closeFd _ => inferInstanceAs (Decidable True)

theorem other_within {o : Other} (h : o.Apart eh) {ele' : CElement}
    (hele' : (w.other M o).repository fd = some ele') (heh : ele'.eh = eh) :
    ∃ ele, w.repository fd = some ele ∧ ele.eh = ele'.eh ∧
      ∀ m, Among ele.mask m → Among ele'.mask m := by
  cases o with
  | registerHandler aEh fd' aMask =>
    rw [World.other] at hele'
    cases registered_registerHandler M w aEh fd' aMask with
    | same hsame =>
      rw [hsame] at hele'
      exact ⟨ele', hele', rfl, fun _ => id⟩
    | bound binding _ _ hrepository =>
      rw [hrepository] at hele'
      rcases Table.update_cases hele' with ⟨-, hsome⟩ | ⟨-, hele'⟩
      · cases hsome
        exact absurd heh h
      · exact ⟨ele', hele', rfl, fun _ => id⟩
  | removeHandler aEh fd' aMask =>
    exact (removed_removeHandler M w aEh fd' aMask).within fd ele' hele'
  | unBind fd' =>
    have hwithin : World.Within (w.other M (.unBind fd')) w := within_none rfl
    exact hwithin fd ele' hele'
  | openFd fd' => exact within_refl (w := w) rfl fd ele' hele'
  | closeFd fd' => exact within_refl (w := w) rfl fd ele' hele'

end VosStack.Handlers
