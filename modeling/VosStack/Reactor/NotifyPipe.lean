import VosStack.Reactor.Handlers

/-!
# Notifications of a handler

`NotifyHandler` writes a record with the descriptor of a handler and a mask to the notify pipe.
`CFSReactorNotifyPipe::OnInput` reads it and calls `ProcessHandleEvent` with `aIsNotify`, which lets
the record pass even if its mask has no bit in common with the registered one: "needn't check the
registered mask if it is notify". But the callbacks are chosen by `maskActual`, the bits that both
masks have, so the record then has no effect.

The handler is called as the record says **exactly when** the registered mask has a `READ` or
`ACCEPT` bit of the record if it has any, and a `WRITE` or `CONNECT` bit if it has any. A TCP
connector is registered with `CONNECT_MASK` and notifies itself with `WRITE_MASK` when `connect()`
succeeds at once: it is not told.

A record for the pipe itself is dropped, and one with the descriptor `-1` is for the event queue;
`Notify` asserts that a handler's descriptor is another one.
-/

namespace VosStack.Handlers

open Transition

/-! ### What a record asks for -/

/-- A mask for `OnInput`. -/
def Masks.isInput (M : Masks) (mask : MASK) : Bool :=
  bitEnabled mask M.accept || bitEnabled mask M.read

/-- A mask for `OnOutput`. -/
def Masks.isOutput (M : Masks) (mask : MASK) : Bool :=
  bitEnabled mask M.connect || bitEnabled mask M.write

/-- The thread is in `OnInput` of the handler. -/
def World.InInput (w : World) (fd : ℤ) (ele : CElement) : Prop :=
  ∃ maskActual collected, w.pc = .input fd ele maskActual collected

/-- A record with `aMask` for the handler of `fd` calls it as it says, in the world `w`; it was
written when the binding `noted` was there. -/
structure NotifyOk (M : Masks) (w : World) (readHandle fd : ℤ) (ele : CElement) (aMask : MASK)
    (noted : Option ℕ) : Prop where
  input : (w.notifyInput M readHandle (notifyRecord (some fd) aMask noted)).InInput fd ele ↔
    M.isInput aMask = true
  output : ¬ (w.notifyInput M readHandle (notifyRecord (some fd) aMask noted)).InInput fd ele →
    ((w.notifyInput M readHandle (notifyRecord (some fd) aMask noted)).pc = .output fd ele ↔
      M.isOutput aMask = true)
  /-- `OnInput` returns zero, whatever it has done to the world -/
  then_output : (w.notifyInput M readHandle (notifyRecord (some fd) aMask noted)).InInput fd ele →
    ∀ w₁ w₂, w₁.pc = (w.notifyInput M readHandle (notifyRecord (some fd) aMask noted)).pc →
      step M w₁ (.inputReturn 0) = some w₂ →
      (w₂.pc = .output fd ele ↔ M.isOutput aMask = true)

section

variable {M : Masks} {w : World} {readHandle fd : ℤ} {ele : CElement} {aMask : MASK}
variable {noted : Option ℕ}

theorem bitEnabled_of_and {mask aMask bit : MASK} (h : bitEnabled (mask &&& aMask) bit = true) :
    bitEnabled aMask bit = true := by
  rw [bitEnabled, bne_iff_ne] at h ⊢
  intro hzero
  rw [BitVec.and_assoc, hzero, BitVec.and_zero] at h
  exact h rfl

theorem isInput_of_and (h : M.isInput (ele.mask &&& aMask) = true) : M.isInput aMask = true :=
  Bool.or_eq_true_iff.mpr ((Bool.or_eq_true_iff.mp h).imp bitEnabled_of_and bitEnabled_of_and)

theorem isOutput_of_and (h : M.isOutput (ele.mask &&& aMask) = true) : M.isOutput aMask = true :=
  Bool.or_eq_true_iff.mpr ((Bool.or_eq_true_iff.mp h).imp bitEnabled_of_and bitEnabled_of_and)

/-- The callback that a record leads to. -/
theorem notifyInput_pc (noted : Option ℕ) (hfd : fd ≠ -1) (hpipe : fd ≠ readHandle)
    (hfind : w.repository fd = some ele)
    (hclose : bitEnabled aMask M.close = false) :
    (w.notifyInput M readHandle (notifyRecord (some fd) aMask noted)).pc =
      if M.isInput (ele.mask &&& aMask) then .input fd ele (ele.mask &&& aMask) noted
      else if M.isOutput (ele.mask &&& aMask) then .output fd ele else .loop := by
  have hrecord : ¬ (fd = readHandle ∨ fd = -1) := not_or.mpr ⟨hpipe, hfd⟩
  rw [World.notifyInput, notifyRecord, Option.getD_some, if_neg hrecord,
    World.processHandleEvent, hfind]
  dsimp only
  rw [if_neg (by rw [hclose]; exact Bool.false_ne_true), if_neg (fun h => Bool.noConfusion h.2),
    Bool.false_and, if_neg Bool.false_ne_true]
  rw [Masks.isInput]
  split
  · rfl
  · rw [World.output, Masks.isOutput]
    split <;> rfl

/-- Where `OnInput` returns zero, `OnOutput` follows by the same mask. -/
theorem inputReturn_pc {w₁ w₂ : World} {maskActual : MASK} {collected : Option ℕ}
    (hpc : w₁.pc = .input fd ele maskActual collected)
    (hs : step M w₁ (.inputReturn 0) = some w₂) :
    w₂.pc = .output fd ele ↔ M.isOutput maskActual = true := by
  rw [step, hpc] at hs
  dsimp only at hs
  rw [if_pos rfl] at hs
  obtain rfl := Option.some.inj hs
  rw [World.output, Masks.isOutput]
  split
  · next hout => exact iff_of_true rfl hout
  · next hout => exact iff_of_false Pc.noConfusion hout

/-- The registered mask lets the record through. -/
def Fits (M : Masks) (readHandle fd : ℤ) (mask aMask : MASK) : Prop :=
  (fd = readHandle → M.isInput aMask = false ∧ M.isOutput aMask = false) ∧
    (fd ≠ readHandle → (M.isInput aMask = true → M.isInput (mask &&& aMask) = true) ∧
      (M.isOutput aMask = true → M.isOutput (mask &&& aMask) = true))

instance (M : Masks) (readHandle fd : ℤ) (mask aMask : MASK) :
    Decidable (Fits M readHandle fd mask aMask) :=
  inferInstanceAs (Decidable (_ ∧ _))

/-- A record for the pipe itself is dropped. -/
theorem notifyOk_self_iff :
    NotifyOk M w fd fd ele aMask noted ↔ M.isInput aMask = false ∧ M.isOutput aMask = false := by
  have hpc : (w.notifyInput M fd (notifyRecord (some fd) aMask noted)).pc = .loop := by
    rw [World.notifyInput, notifyRecord, Option.getD_some, if_pos (.inl rfl)]
  have hnot : ¬ (w.notifyInput M fd (notifyRecord (some fd) aMask noted)).InInput fd ele := by
    rintro ⟨_, _, hin⟩
    rw [hpc] at hin
    contradiction
  constructor
  · intro h
    refine ⟨Bool.eq_false_iff.mpr fun hin => hnot (h.input.mpr hin), ?_⟩
    refine Bool.eq_false_iff.mpr fun hout => ?_
    have hcalled := (h.output hnot).mpr hout
    rw [hpc] at hcalled
    contradiction
  · rintro ⟨hin, hout⟩
    refine ⟨iff_of_false hnot (by rw [hin]; exact Bool.false_ne_true), fun _ => ?_,
      fun h => absurd h hnot⟩
    rw [hpc]
    exact iff_of_false Pc.noConfusion (by rw [hout]; exact Bool.false_ne_true)

/-- **A notification reaches its handler** exactly when the registered mask has the bits. -/
theorem notifyOk_iff (hfd : fd ≠ -1) (hfind : w.repository fd = some ele)
    (hclose : bitEnabled aMask M.close = false) :
    NotifyOk M w readHandle fd ele aMask noted ↔ Fits M readHandle fd ele.mask aMask := by
  by_cases hpipe : fd = readHandle
  · subst hpipe
    rw [Fits, notifyOk_self_iff]
    exact ⟨fun h => ⟨fun _ => h, fun hne => absurd rfl hne⟩, fun h => h.1 rfl⟩
  have hpc := notifyInput_pc noted hfd hpipe hfind hclose
  rw [Fits, and_iff_right (fun heq => absurd heq hpipe), forall_prop_of_true hpipe]
  have hin : (w.notifyInput M readHandle (notifyRecord (some fd) aMask noted)).InInput fd ele ↔
      M.isInput (ele.mask &&& aMask) = true := by
    rw [World.InInput, hpc]
    split
    · next h => exact iff_of_true ⟨_, _, rfl⟩ h
    · next h =>
      refine iff_of_false ?_ h
      rintro ⟨_, _, hcalled⟩
      split at hcalled <;> contradiction
  constructor
  · intro h
    refine ⟨fun hwant => hin.mp (h.input.mpr hwant), fun hwant => ?_⟩
    by_cases hcalled : M.isInput (ele.mask &&& aMask) = true
    · -- `OnInput` returns zero and leaves the world as it is
      rw [if_pos hcalled] at hpc
      have hs : step M (w.notifyInput M readHandle (notifyRecord (some fd) aMask noted))
          (.inputReturn 0) = some ((w.notifyInput M readHandle
            (notifyRecord (some fd) aMask noted)).output M fd ele (ele.mask &&& aMask) noted) := by
        rw [step, hpc]
        rfl
      exact (inputReturn_pc hpc hs).mp ((h.then_output (hin.mpr hcalled) _ _ rfl hs).mpr hwant)
    · have hout := (h.output (mt hin.mp hcalled)).mpr hwant
      rw [hpc, if_neg hcalled] at hout
      split at hout
      · assumption
      · contradiction
  · rintro ⟨hinput, houtput⟩
    have hiff : M.isOutput (ele.mask &&& aMask) = true ↔ M.isOutput aMask = true :=
      ⟨isOutput_of_and, houtput⟩
    refine ⟨hin.trans ⟨isInput_of_and, hinput⟩, fun hnot => ?_, fun hcalled w₁ w₂ hw₁ hs => ?_⟩
    · rw [hpc, if_neg (mt hin.mpr hnot), ← hiff]
      split
      · next h => exact iff_of_true rfl h
      · next h => exact iff_of_false Pc.noConfusion h
    · rw [hpc, if_pos (hin.mp hcalled)] at hw₁
      rw [inputReturn_pc hw₁ hs, hiff]

end

/-- A transport is registered for `READ` and `WRITE`, a connector for `CONNECT`. -/
def registered : List Action :=
  [.openFd 5, .registerHandler 0 5 0xc, .openFd 6, .registerHandler 1 6 0x2]

theorem notifyOk_iff_transport :
    ∃ w, exec (step oneBitMasks) init registered = some w ∧
      w.repository 5 = some ⟨0, 0xc, 0⟩ ∧ NotifyOk oneBitMasks w 3 5 ⟨0, 0xc, 0⟩ 0x8 (some 0) :=
  ⟨_, rfl, rfl, (notifyOk_iff (by decide) rfl rfl).mpr (by decide)⟩

/-- **The connector is not told.** -/
theorem not_notifyOk :
    ∃ w, exec (step oneBitMasks) init registered = some w ∧
      w.repository 6 = some ⟨1, 0x2, 1⟩ ∧ bitEnabled 0x8 oneBitMasks.close = false ∧
      (w.notifyInput oneBitMasks 3 (notifyRecord (some 6) 0x8 (some 1))).log = w.log ∧
      ¬ NotifyOk oneBitMasks w 3 6 ⟨1, 0x2, 1⟩ 0x8 (some 1) := by
  refine ⟨_, rfl, rfl, rfl, rfl, fun h => ?_⟩
  have hout := (h.output ?_).mpr rfl
  · contradiction
  · rintro ⟨_, _, hin⟩
    contradiction

end VosStack.Handlers
