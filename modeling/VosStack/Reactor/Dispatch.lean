import VosStack.Reactor.Bindings

/-!
# Events and the handlers they reach

`OnInput` and `OnOutput` should be called on handlers that are bound to the descriptor at that
moment, for events that were collected, and notifications that were written, while that binding
was there: `DispatchOk`.

The code has three gaps:

* After `OnInput`, `ProcessHandleEvent` calls `OnOutput` on the handler it found before, without
  looking it up again. `OnInput` may have removed it, or bound another one. (For a callback that
  fails, the code does look again.)
* The events of a batch carry descriptor numbers. A callback may close a descriptor and open another
  one that gets the same number; if a handler is bound to it, it is called for the event of the old
  one. A connector takes its `OnOutput` for a connection.
* So do the records in the notify pipe, which may stay there over any number of batches.

`Careful` are the steps that stay clear of them: no descriptor gets a new binding while the batch
has an event for it, or the notify pipe a record, and an `OnInput` after which `OnOutput` is to be
called leaves its binding in place, if it returns zero.
-/

namespace VosStack.Handlers

open Transition

/-! ### The contract -/

/-- The call was made on a bound handler, for an event collected, or a record written, for that
binding. -/
def Call.Ok (c : Call) : Prop := c.bound = some c.binding ∧ c.collected = some c.binding

/-- Callbacks go to the binding for which the event was collected. -/
def Event.Ok : Event → Prop
  | .onInput c | .onOutput c => c.Ok
  | .ended b (.closeEvent collected) => collected = some b
  | _ => True

/-- Every callback so far was made on the right handler. -/
def DispatchOk (w : World) : Prop := ∀ e ∈ w.log, e.Ok

/-- `OnOutput` is called after an `OnInput` that returns zero. -/
def outputFollows (M : Masks) (maskActual : MASK) : Bool :=
  bitEnabled maskActual M.connect || bitEnabled maskActual M.write

/-- The binding that `ProcessHandleEvent` has found is still there when `OnOutput` is to follow. -/
def World.Keeps (M : Masks) (w : World) (nOnCall : ℤ) : Pc → Prop
  | .input fd eleFind maskActual _ =>
    nOnCall = 0 → outputFollows M maskActual = true → w.bindingOf fd = some eleFind.binding
  | _ => True

/-- The steps that do not reach the gaps. -/
def Careful (M : Masks) (w : World) : Action → Prop
  | .registerHandler aEh fdNew _ =>
    (∀ ele ∈ w.repository fdNew, ele.eh ≠ aEh) →
      (∀ r ∈ w.batch, r.fd ≠ fdNew) ∧ ∀ b ∈ w.pipe, b.fd ≠ fdNew
  | .inputReturn nOnCall => w.Keeps M nOnCall w.pc
  -- `OnInput` of the notify pipe returns zero
  | .notifyReturn => ∀ c ∈ w.caller, w.Keeps M 0 (.input c.fd c.eleFind c.maskActual c.collected)
  | _ => True

instance (M : Masks) (w : World) (nOnCall : ℤ) : DecidablePred (w.Keeps M nOnCall)
  | .input fd eleFind maskActual _ =>
    inferInstanceAs (Decidable (nOnCall = 0 → outputFollows M maskActual = true →
      w.bindingOf fd = some eleFind.binding))
  | .idle | .loop | .output _ _ | .close => inferInstanceAs (Decidable True)

instance (M : Masks) (w : World) : DecidablePred (Careful M w)
  | .registerHandler aEh fdNew _ =>
    inferInstanceAs (Decidable ((∀ ele ∈ w.repository fdNew, ele.eh ≠ aEh) →
      (∀ r ∈ w.batch, r.fd ≠ fdNew) ∧ ∀ b ∈ w.pipe, b.fd ≠ fdNew))
  | .inputReturn nOnCall => inferInstanceAs (Decidable (w.Keeps M nOnCall w.pc))
  | .notifyReturn => inferInstanceAs (Decidable (∀ c ∈ w.caller,
      w.Keeps M 0 (.input c.fd c.eleFind c.maskActual c.collected)))
  | .removeHandler _ _ _ | .openFd _ | .closeFd _ | .wait _ | .dispatch _ | .openPipe _ |
    .notifyHandler _ _ | .notifyInput | .outputReturn _ | .closeReturn | .endBatch =>
    inferInstanceAs (Decidable True)

/-! ### The invariant -/

structure Inv (w : World) : Prop where
  dispatched : DispatchOk w
  /-- an event of the batch was collected for the binding that is there, if there is one -/
  batch : ∀ r ∈ w.batch, ∀ ele ∈ w.repository r.fd, r.collected = some ele.binding
  /-- a record was written for the binding that is there, if there is one -/
  pipe : ∀ b ∈ w.pipe, ∀ ele ∈ w.repository b.fd, b.noted = some ele.binding
  caller : ∀ c ∈ w.caller, c.collected = some c.eleFind.binding
  input : ∀ fd ele mask collected, w.pc = .input fd ele mask collected →
    collected = some ele.binding

section steps

variable {M : Masks} {w w' : World}

theorem inv_init : Inv init :=
  ⟨fun _ he => absurd he List.not_mem_nil, fun _ hr => absurd hr List.not_mem_nil,
    fun _ hb => absurd hb List.not_mem_nil, fun _ hc => absurd hc nofun,
    fun _ _ _ _ h => absurd h nofun⟩

/-- What the users' calls leave alone. -/
structure Frame (w w' : World) : Prop where
  batch : w'.batch = w.batch
  pipe : w'.pipe = w.pipe
  caller : w'.caller = w.caller
  pc : w'.pc = w.pc
  log : ∀ e ∈ w'.log, e ∈ w.log ∨ e.Ok

theorem Frame.refl (w : World) : Frame w w := ⟨rfl, rfl, rfl, rfl, fun _ he => .inl he⟩

theorem frame_bind (w : World) (fd : ℤ) (eh : ℕ) (mask : MASK) :
    Frame w (w.bind fd eh mask).1 := by
  rw [World.bind]
  split
  · refine ⟨rfl, rfl, rfl, rfl, fun e he => (List.mem_append.mp he).imp_right fun he => ?_⟩
    obtain rfl := List.mem_singleton.mp he
    trivial
  · split
    · exact ⟨rfl, rfl, rfl, rfl, fun _ he => .inl he⟩
    · refine ⟨rfl, rfl, rfl, rfl, fun e he => (List.mem_append.mp he).imp_right fun he => ?_⟩
      rcases List.mem_pair.mp he with rfl | rfl <;> trivial

theorem frame_registerHandler (aEh : ℕ) (fdNew : ℤ) (aMask : MASK) :
    Frame w (w.registerHandler M aEh fdNew aMask).1 := by
  rw [World.registerHandler]
  split
  · exact Frame.refl w
  · split
    · split
      · exact Frame.refl w
      · next w₁ hreg =>
        rw [World.onHandleRegister] at hreg
        split at hreg
        · have hbind := frame_bind w₁ fdNew aEh (aMask &&& M.allEvents)
          obtain rfl := Option.some.inj hreg
          exact ⟨hbind.batch, hbind.pipe, hbind.caller, hbind.pc, hbind.log⟩
        · contradiction
    · split
      · exact Frame.refl w
      · exact frame_bind w fdNew aEh _

theorem frame_removeHandler (aEh : ℕ) (fdNew : ℤ) (aMask : MASK) :
    Frame w (w.removeHandler M aEh fdNew aMask).1 := by
  rw [World.removeHandler]
  split
  · exact Frame.refl w
  · split
    · exact Frame.refl w
    · next ele _ =>
      simp only [World.removeHandleWithoutFinding, bitEnabled_and_allEvents, Bool.false_eq_true,
        if_false]
      split
      · exact Frame.refl w
      · split
        · refine ⟨rfl, rfl, rfl, rfl, fun e he => (List.mem_append.mp he).imp_right fun he => ?_⟩
          obtain rfl := List.mem_singleton.mp he
          trivial
        · exact frame_bind w fdNew ele.eh _

/-- A binding that is there after a step was there before it, unless the step has made it. -/
theorem Change.binding {a : Action} (h : Change M w a w') {fd : ℤ} {ele' : CElement}
    (hele : w'.repository fd = some ele') :
    (∃ ele, w.repository fd = some ele ∧ ele.binding = ele'.binding) ∨
      ∃ eh aMask, a = .registerHandler eh fd aMask ∧ ∀ ele ∈ w.repository fd, ele.eh ≠ eh := by
  have hupdate : ∀ {fd' : ℤ} {o : Option CElement},
      w'.repository = Function.update w.repository fd' o →
      fd = fd' ∧ o = some ele' ∨ w.repository fd = some ele' := by
    intro fd' o hrepository
    rw [hrepository] at hele
    by_cases hfd : fd = fd'
    · subst hfd
      rw [Function.update_self] at hele
      exact .inl ⟨rfl, hele⟩
    · rw [Function.update_of_ne hfd] at hele
      exact .inr hele
  cases h with
  | quiet _ hrepository => exact .inl ⟨ele', hrepository ▸ hele, rfl⟩
  | closed _ hrepository => exact .inl ⟨ele', hrepository ▸ hele, rfl⟩
  | bound eh fd' aMask _ hfree hrepository =>
    rcases hupdate hrepository with ⟨rfl, -⟩ | hold
    · exact .inr ⟨eh, aMask, rfl, fun ele hele => absurd (hfree.symm.trans hele) nofun⟩
    · exact .inl ⟨ele', hold, rfl⟩
  | rebound fd' ele aMask _ hfind hrepository =>
    rcases hupdate hrepository with ⟨rfl, hnew⟩ | hold
    · obtain rfl := Option.some.inj hnew
      exact .inl ⟨ele, hfind, rfl⟩
    · exact .inl ⟨ele', hold, rfl⟩
  | replaced eh fd' ele aMask _ hfind hne hrepository =>
    rcases hupdate hrepository with ⟨rfl, -⟩ | hold
    · refine .inr ⟨eh, aMask, rfl, fun ele₁ hele₁ => ?_⟩
      obtain rfl := Option.some.inj (hfind.symm.trans hele₁)
      exact hne
    · exact .inl ⟨ele', hold, rfl⟩
  | reduced eh fd' ele aMask _ hfind hrepository =>
    rcases hupdate hrepository with ⟨rfl, hnew⟩ | hold
    · obtain rfl := Option.some.inj hnew
      exact .inl ⟨ele, hfind, rfl⟩
    · exact .inl ⟨ele', hold, rfl⟩
  | removed _ fd' _ _ _ _ hrepository =>
    rcases hupdate hrepository with ⟨rfl, hnew⟩ | hold
    · exact absurd hnew nofun
    · exact .inl ⟨ele', hold, rfl⟩
  | ended fd' _ _ _ _ _ hrepository =>
    rcases hupdate hrepository with ⟨rfl, hnew⟩ | hold
    · exact absurd hnew nofun
    · exact .inl ⟨ele', hold, rfl⟩

/-- What a step leaves of the batch, of the records and of the calls. -/
structure Remains (w w' : World) : Prop where
  batch : ∀ r ∈ w'.batch, r ∈ w.batch
  pipe : ∀ b ∈ w'.pipe, b ∈ w.pipe
  caller : ∀ c ∈ w'.caller, c.collected = some c.eleFind.binding
  input : ∀ fd ele mask collected, w'.pc = .input fd ele mask collected →
    collected = some ele.binding

/-- A step that makes no binding of the descriptors of the batch and of the records. -/
theorem Inv.of_change (h : Inv w) {a : Action} (hchange : Change M w a w')
    (hcareful : Careful M w a) (hlog : DispatchOk w') (hremains : Remains w w') : Inv w' := by
  refine ⟨hlog, fun r hr ele' hele' => ?_, fun b hb ele' hele' => ?_, hremains.caller,
    hremains.input⟩
  · have hr := hremains.batch r hr
    rcases hchange.binding hele' with ⟨ele, hele, hbinding⟩ | ⟨eh, aMask, rfl, hnew⟩
    · rw [← hbinding]
      exact h.batch r hr ele hele
    · exact absurd rfl ((hcareful hnew).1 r hr)
  · have hb := hremains.pipe b hb
    rcases hchange.binding hele' with ⟨ele, hele, hbinding⟩ | ⟨eh, aMask, rfl, hnew⟩
    · rw [← hbinding]
      exact h.pipe b hb ele hele
    · exact absurd rfl ((hcareful hnew).2 b hb)

/-- The users' calls. -/
theorem Inv.frame (h : Inv w) {a : Action} (hchange : Change M w a w') (hcareful : Careful M w a)
    (hframe : Frame w w') : Inv w' := by
  refine h.of_change hchange hcareful (fun e he => ?_) ⟨fun r hr => hframe.batch ▸ hr,
    fun b hb => hframe.pipe ▸ hb, hframe.caller ▸ h.caller,
    fun fd ele mask collected hpc => h.input fd ele mask collected (hframe.pc ▸ hpc)⟩
  exact (hframe.log e he).elim (h.dispatched e) id

theorem DispatchOk.append (h : DispatchOk w) {es : List Event} (hes : ∀ e ∈ es, e.Ok)
    (hlog : w'.log = w.log ++ es) : DispatchOk w' := by
  intro e he
  rw [hlog] at he
  exact (List.mem_append.mp he).elim (h e) (hes e)

/-- What `ProcessHandleEvent` leaves behind: calls of the right handlers. -/
structure Settled (w w' : World) : Prop where
  batch : w'.batch = w.batch
  pipe : w'.pipe = w.pipe
  caller : w'.caller = w.caller
  dispatched : DispatchOk w'
  input : ∀ fd ele mask collected, w'.pc = .input fd ele mask collected →
    collected = some ele.binding

theorem Settled.inv {v : World} (hsettled : Settled v w') (h : Inv w) {a : Action}
    (hchange : Change M w a w') (hcareful : Careful M w a) (hbatch : ∀ r ∈ v.batch, r ∈ w.batch)
    (hpipe : ∀ b ∈ v.pipe, b ∈ w.pipe)
    (hcaller : ∀ c ∈ v.caller, c.collected = some c.eleFind.binding) : Inv w' :=
  h.of_change hchange hcareful hsettled.dispatched
    ⟨fun r hr => hbatch r (hsettled.batch ▸ hr), fun b hb => hpipe b (hsettled.pipe ▸ hb),
      hsettled.caller ▸ hcaller, hsettled.input⟩

/-- `ProcessHandleEvent` goes on in the state that a callback has left. -/
theorem Settled.inv_self (hsettled : Settled w w') (h : Inv w) {a : Action}
    (hchange : Change M w a w') (hcareful : Careful M w a) : Inv w' :=
  hsettled.inv h hchange hcareful (fun _ => id) (fun _ => id) h.caller

theorem Settled.of_setPc {pc : Pc} (h : Settled { w with pc } w') : Settled w w' :=
  ⟨h.batch, h.pipe, h.caller, h.dispatched, h.input⟩

theorem settled_loop (h : DispatchOk w) : Settled w { w with pc := .loop } :=
  ⟨rfl, rfl, rfl, h, fun _ _ _ _ hpc => absurd hpc nofun⟩

/-- The reactor ends a binding. -/
theorem settled_removeAll (h : DispatchOk w) (hok : MasksOk M w) {fd : ℤ} {ele : CElement}
    (hfind : w.repository fd = some ele) {reason : Reason}
    (hreason : (Event.ended ele.binding reason).Ok) :
    Settled w (w.removeAll M fd ele reason) := by
  rw [removeAll_eq hok hfind]
  refine ⟨rfl, rfl, rfl, h.append (fun e he => ?_) rfl, fun _ _ _ _ hpc => absurd hpc nofun⟩
  rcases List.mem_pair.mp he with rfl | rfl
  · exact hreason
  · trivial

theorem settled_onCallFailed (h : DispatchOk w) (hok : MasksOk M w) (fd : ℤ) (ele : CElement)
    (eh : ℕ) : Settled w (w.onCallFailed M fd ele (.callback eh)) := by
  rw [World.onCallFailed]
  cases hfind : w.repository fd with
  | none => exact settled_loop h
  | some again =>
    dsimp only
    split
    · have hok' : MasksOk M { w with pc := .loop } := hok
      have h' : DispatchOk { w with pc := .loop } := h
      refine Settled.of_setPc (settled_removeAll h' hok' hfind ?_)
      trivial
    · exact settled_loop h

theorem settled_output (h : DispatchOk w) {fd : ℤ} {ele : CElement} {mask : MASK}
    {collected : Option ℕ} (hcollected : collected = some ele.binding)
    (hbound : outputFollows M mask = true → w.bindingOf fd = some ele.binding) :
    Settled w (w.output M fd ele mask collected) := by
  rw [World.output]
  split
  · next hfollows =>
    refine ⟨rfl, rfl, rfl, h.append (fun e he => ?_) rfl, fun _ _ _ _ hpc => by contradiction⟩
    obtain rfl := List.mem_singleton.mp he
    exact ⟨hbound hfollows, hcollected⟩
  · exact settled_loop h

/-- An event that was collected for the binding that is there. -/
theorem settled_processHandleEvent (h : DispatchOk w) (hok : MasksOk M w) {fd : ℤ} (aMask : MASK)
    (aIsNotify : Bool) {collected : Option ℕ}
    (hcollected : ∀ ele ∈ w.repository fd, collected = some ele.binding) :
    Settled w (w.processHandleEvent M fd aMask aIsNotify false collected) := by
  rw [World.processHandleEvent]
  cases hfind : w.repository fd with
  | none => exact settled_loop h
  | some ele =>
    have hele := hcollected ele hfind
    have hbound : w.bindingOf fd = some ele.binding := by
      rw [World.bindingOf, hfind, Option.map_some]
    dsimp only
    split
    · have hok' : MasksOk M { w with pc := .loop } := hok
      have h' : DispatchOk { w with pc := .loop } := h
      refine Settled.of_setPc (settled_removeAll h' hok' hfind ?_)
      exact hele
    split
    · exact settled_loop h
    rw [Bool.false_and, if_neg Bool.false_ne_true]
    split
    · refine ⟨rfl, rfl, rfl, h.append (fun e he => ?_) rfl, fun fd' ele' mask collected' hpc => ?_⟩
      · obtain rfl := List.mem_singleton.mp he
        exact ⟨hbound, hele⟩
      · obtain ⟨rfl, rfl, rfl, rfl⟩ := Pc.input.inj hpc
        exact hele
    · exact settled_output h hele fun _ => hbound

/-- A record that was written for the binding that is there. -/
theorem settled_notifyInput (h : DispatchOk w) (hok : MasksOk M w) (readHandle : ℤ) {b : CBuffer}
    (hnoted : ∀ ele ∈ w.repository b.fd, b.noted = some ele.binding) :
    Settled w (w.notifyInput M readHandle b) := by
  rw [World.notifyInput]
  split
  · exact settled_loop h
  · exact settled_processHandleEvent h hok b.mask true hnoted

/-- A call of the user, which the state may refuse. -/
theorem Inv.call (h : Inv w) (hok : MasksOk M w) {a : Action} (hcareful : Careful M w a)
    {c : Prop} [Decidable c] {v : World} (ha : Handlers.step M w a = if c then none else some v)
    (hframe : Frame w v) (hs : Handlers.step M w a = some w') : Inv w' := by
  have hchange := change_of_step hok hs
  rw [ha] at hs
  obtain ⟨-, ⟨rfl⟩⟩ := Option.ite_none_left_eq_some.mp hs
  exact h.frame hchange hcareful hframe

theorem collected_bindingOf {fd : ℤ} {ele : CElement} (h : w.repository fd = some ele) :
    w.bindingOf fd = some ele.binding := by
  rw [World.bindingOf, h, Option.map_some]

theorem Inv.wait (h : Inv w) {events : List (ℤ × Interest)}
    (hs : Handlers.step M w (.wait events) = some w') : Inv w' := by
  rw [Handlers.step] at hs
  split at hs
  · obtain rfl := Option.some.inj hs
    refine ⟨h.dispatched, fun r hr ele hele => ?_, h.pipe, h.caller,
      fun _ _ _ _ hpc => by contradiction⟩
    obtain ⟨e, -, rfl⟩ := List.mem_map.mp hr
    exact collected_bindingOf hele
  · contradiction

theorem Inv.dispatch (h : Inv w) (hok : MasksOk M w) {connected : Bool}
    (hs : Handlers.step M w (.dispatch connected) = some w') : Inv w' := by
  have hchange := change_of_step hok hs
  rw [Handlers.step] at hs
  split at hs
  · next r batch _ hbatch _ =>
    -- the event was collected for the binding that the descriptor has now, if it has one
    have hmem : r ∈ w.batch := hbatch ▸ List.mem_cons_self
    have hok' : MasksOk M { w with batch } := hok
    have h' : DispatchOk { w with batch } := h.dispatched
    have hsettled := settled_processHandleEvent h' hok' (M.maskSig r.events connected) false
      (h.batch r hmem)
    obtain rfl := Option.some.inj hs
    refine hsettled.inv h hchange trivial (fun r' hr' => ?_) (fun _ => id) h.caller
    rw [hbatch]
    exact List.mem_cons_of_mem r hr'
  · contradiction

theorem Inv.notifyHandler (h : Inv w) {fd : ℤ} {aMask : MASK}
    (hs : Handlers.step M w (.notifyHandler fd aMask) = some w') : Inv w' := by
  rw [Handlers.step] at hs
  split at hs
  · contradiction
  · obtain rfl := Option.some.inj hs
    refine ⟨h.dispatched, h.batch, fun b hb ele hele => ?_, h.caller, h.input⟩
    rcases List.mem_append.mp hb with hb | hb
    · exact h.pipe b hb ele hele
    · obtain rfl := List.mem_singleton.mp hb
      exact collected_bindingOf hele

theorem Inv.notifyInput (h : Inv w) (hok : MasksOk M w)
    (hs : Handlers.step M w .notifyInput = some w') : Inv w' := by
  have hchange := change_of_step hok hs
  rw [Handlers.step] at hs
  split at hs
  · next fd ele mask collected b pipe hpc hpipe _ =>
    split at hs
    · -- the record was written for the binding that the descriptor has now, if it has one
      have hmem : b ∈ w.pipe := hpipe ▸ List.mem_cons_self
      have htail : ∀ b' ∈ pipe, b' ∈ w.pipe := fun b' hb' => hpipe ▸ List.mem_cons_of_mem b hb'
      split at hs
      · obtain rfl := Option.some.inj hs
        exact h.of_change hchange trivial h.dispatched ⟨fun _ => id, htail, h.caller, h.input⟩
      · let v : World := { w with pipe, caller := some ⟨fd, ele, mask, collected⟩ }
        have hsettled : Settled v (v.notifyInput M fd b) :=
          settled_notifyInput (w := v) h.dispatched hok fd (h.pipe b hmem)
        obtain rfl := Option.some.inj hs
        refine hsettled.inv h hchange trivial (fun _ => id) htail fun c hc => ?_
        obtain rfl := Option.some.inj hc
        exact h.input fd ele mask collected hpc
    · contradiction
  · contradiction

theorem Inv.notifyReturn (h : Inv w) (hok : MasksOk M w) (hcareful : Careful M w .notifyReturn)
    (hs : Handlers.step M w .notifyReturn = some w') : Inv w' := by
  have hchange := change_of_step hok hs
  rw [Handlers.step] at hs
  split at hs
  · next c _ hc =>
    have hkeeps : w.Keeps M 0 (.input c.fd c.eleFind c.maskActual c.collected) := hcareful c hc
    let v : World := { w with caller := none }
    have hsettled : Settled v (v.output M c.fd c.eleFind c.maskActual c.collected) :=
      settled_output (w := v) h.dispatched (h.caller c hc) (hkeeps rfl)
    obtain rfl := Option.some.inj hs
    refine hsettled.inv h hchange hcareful (fun _ => id) (fun _ => id) fun c hc => ?_
    exact absurd hc (Option.not_mem_none c)
  · contradiction

theorem Inv.inputReturn (h : Inv w) (hok : MasksOk M w) {nOnCall : ℤ}
    (hcareful : Careful M w (.inputReturn nOnCall))
    (hs : Handlers.step M w (.inputReturn nOnCall) = some w') : Inv w' := by
  have hchange := change_of_step hok hs
  rw [Handlers.step] at hs
  split at hs
  · next fd ele mask collected hpc =>
    -- `OnOutput` may follow for the same `ele`, so `OnInput` must not have ended it
    have hkeeps : w.Keeps M nOnCall (.input fd ele mask collected) := by
      rw [← hpc]
      exact hcareful
    split at hs
    · next hzero =>
      obtain rfl := Option.some.inj hs
      have hcollected := h.input fd ele mask collected hpc
      exact (settled_output h.dispatched hcollected (hkeeps hzero)).inv_self h hchange hcareful
    · obtain rfl := Option.some.inj hs
      exact (settled_onCallFailed h.dispatched hok fd ele ele.eh).inv_self h hchange hcareful
  · contradiction

theorem Inv.outputReturn (h : Inv w) (hok : MasksOk M w) {nOnCall : ℤ}
    (hs : Handlers.step M w (.outputReturn nOnCall) = some w') : Inv w' := by
  have hchange := change_of_step hok hs
  rw [Handlers.step] at hs
  split at hs
  · next fd ele _ =>
    split at hs
    · obtain rfl := Option.some.inj hs
      exact (settled_loop h.dispatched).inv_self h hchange trivial
    · obtain rfl := Option.some.inj hs
      exact (settled_onCallFailed h.dispatched hok fd ele ele.eh).inv_self h hchange trivial
  · contradiction

/-- **Every careful step keeps the invariant.** -/
theorem Inv.step (h : Inv w) (hok : MasksOk M w) {a : Action} (hcareful : Careful M w a)
    (hs : Handlers.step M w a = some w') : Inv w' := by
  cases a with
  | registerHandler aEh fdNew aMask =>
    exact h.call hok hcareful rfl (frame_registerHandler aEh fdNew aMask) hs
  | removeHandler aEh fdNew aMask =>
    exact h.call hok hcareful rfl (frame_removeHandler aEh fdNew aMask) hs
  | openFd fd => exact h.call hok hcareful rfl ⟨rfl, rfl, rfl, rfl, fun _ he => .inl he⟩ hs
  | closeFd fd => exact h.call hok hcareful rfl ⟨rfl, rfl, rfl, rfl, fun _ he => .inl he⟩ hs
  | wait events => exact h.wait hs
  | dispatch connected => exact h.dispatch hok hs
  | openPipe readHandle =>
    rw [Handlers.step] at hs
    obtain ⟨-, ⟨rfl⟩⟩ := Option.ite_none_left_eq_some.mp hs
    exact ⟨h.dispatched, h.batch, fun _ hb => absurd hb List.not_mem_nil, h.caller, h.input⟩
  | notifyHandler fd aMask => exact h.notifyHandler hs
  | notifyInput => exact h.notifyInput hok hs
  | notifyReturn => exact h.notifyReturn hok hcareful hs
  | inputReturn nOnCall => exact h.inputReturn hok hcareful hs
  | outputReturn nOnCall => exact h.outputReturn hok hs
  | closeReturn =>
    have hchange := change_of_step hok hs
    rw [Handlers.step] at hs
    split at hs
    · obtain rfl := Option.some.inj hs
      exact (settled_loop h.dispatched).inv_self h hchange hcareful
    · contradiction
  | endBatch =>
    rw [Handlers.step] at hs
    split at hs
    · obtain rfl := Option.some.inj hs
      exact ⟨h.dispatched, h.batch, h.pipe, h.caller, fun _ _ _ _ hpc => by contradiction⟩
    · contradiction

end steps

/-! ### Runs -/

/-- Two handlers are called; the first one removes itself and registers for another descriptor. The
second one is notified. -/
def moves : List Action :=
  [.openPipe 3, .openFd 5, .openFd 6, .openFd 7, .registerHandler 0 5 0x4,
    .registerHandler 1 6 0xc, .registerHandler 2 3 0x4,
    .wait [(5, ⟨true, false⟩), (6, ⟨true, true⟩)], .dispatch true, .removeHandler 0 5 0x4,
    .registerHandler 0 7 0x4, .inputReturn 0, .dispatch true, .inputReturn 0, .outputReturn 0,
    .endBatch, .notifyHandler 6 0x8, .wait [(3, ⟨true, false⟩)], .dispatch true, .notifyInput,
    .outputReturn 0, .notifyReturn, .endBatch]

end VosStack.Handlers
