import VosStack.Transport.Inversion

/-!
# Who wakes a refused sender

A `SendData` that finds the buffer full is refused with `CAW_ERROR_PARTIAL_DATA` and sets
the proxy's `m_bNeedOnSend`: the user now waits for an `OnSend`. `Woken` says that one is
on its way: a `CFSEventOnSend` is queued for the user thread, or the actual transport's
own `m_bNeedOnSend` is armed, so that its next writable event reaches the proxy's `OnSend`.

The code does not keep `Woken`. A send is refused when the buffer is full and the last
failure was *not* `CAW_ERROR_PARTIAL_DATA`, but it is exactly that other kind of failure
that leaves the transport unarmed. Two paths get there: a send event whose send fails hard
while nothing is armed, and an `OnSend` upcall, which has just disarmed the transport, whose
flush fails hard. A flush by a later send event does not repair it, since only `OnSend` posts
a `CFSEventOnSend`.

`SoftSends` is the condition under which the code does keep it. The proof carries two facts
besides the waiting flag itself: while `m_bIsBufferFull` is set somebody is armed or about to
clear it from `OnSend`, and so is a `SendData` that has read `m_bIsBufferFull` as true and not
yet `m_bPartialDataLastTime`.
-/

namespace VosStack

open Transition

/-! ### Arming, through `Send_i` -/

section Arming

variable (t : CFSTransportTcp) (script : List SendOutcome)

/-- Flushing does not disarm the transport. -/
theorem flush_needOnSend_of_armed (ha : t.needOnSend = true) (buf : List Bytes) :
    (flush t script buf).tcp.needOnSend = true := by
  induction buf generalizing t script with
  | nil => exact ha
  | cons d ds ih =>
    have ha' := t.sendData_needOnSend_of_armed script d ha
    by_cases h : (t.sendData script d).2.rv = .ok
    · rw [flush_cons_of_ok t script ds h]
      exact ih _ _ ha'
    · rw [flush_cons_of_failed t script ds h]
      exact ha'

/-- Without hard errors a flush ends with an empty buffer or with the transport armed. -/
theorem flush_exit_of_error_not_mem (ho : t.handle ≠ none) (he : .error ∉ script)
    (buf : List Bytes) :
    (flush t script buf).exit = .flushed ∨
      (flush t script buf).exit = .fail .partialData ∧
        (flush t script buf).tcp.needOnSend = true := by
  induction buf generalizing t script with
  | nil => exact .inl rfl
  | cons d ds ih =>
    rcases t.sendData_rv_of_error_not_mem script d ho he with h | h
    · rw [flush_cons_of_ok t script ds h]
      refine ih _ _ (by simpa using ho) fun hm => he ?_
      exact t.sendData_script_subset script d hm
    · have hne : (t.sendData script d).2.rv ≠ .ok := by simp [h]
      rw [flush_cons_of_failed t script ds hne, h]
      exact .inr ⟨rfl, t.sendData_needOnSend_of_partialData script d h⟩

variable (p : CFSTransportThreadProxy)

/-- `Send_i` does not disarm the transport. -/
theorem send_i_needOnSend_of_armed (ha : t.needOnSend = true) (aData : Option Bytes) :
    (p.send_i t script aData).tcp.needOnSend = true := by
  unfold CFSTransportThreadProxy.send_i
  cases aData with
  | none => exact flush_needOnSend_of_armed t script ha _
  | some d =>
    have hd := t.sendData_needOnSend_of_armed script d ha
    dsimp only
    split_ifs
    · exact hd
    · exact hd
    · exact flush_needOnSend_of_armed t script ha _

/-- Without hard errors `Send_i` reaches its `fail` label only with the transport armed. -/
theorem send_i_needOnSend_of_fail (ho : t.handle ≠ none) (he : .error ∉ script)
    {aData : Option Bytes} {rv : CAWResult} (hx : (p.send_i t script aData).exit = .fail rv) :
    (p.send_i t script aData).tcp.needOnSend = true := by
  have hflush : ∀ buf, (flush t script buf).exit = .fail rv →
      (flush t script buf).tcp.needOnSend = true := by
    intro buf hb
    rcases flush_exit_of_error_not_mem t script ho he buf with h | ⟨-, h⟩
    · simp [h] at hb
    · exact h
  cases aData with
  | none => exact hflush _ hx
  | some d =>
    unfold CFSTransportThreadProxy.send_i at hx ⊢
    dsimp only at hx ⊢
    split_ifs at hx ⊢
    · rename_i hne
      rcases t.sendData_rv_of_error_not_mem script d ho he with h | h
      · simp [h] at hne
      · exact t.sendData_needOnSend_of_partialData script d h
    · exact hflush _ hx

/-- The `OnSend` upcall of `Send_i` ends in the flush loop, never in a direct send. -/
theorem send_i_none_exit (h : (p.send_i t script none).exit ≠ .flushed) :
    ∃ rv, (p.send_i t script none).exit = .fail rv := by
  have hflush : ∀ (t : CFSTransportTcp) (script : List SendOutcome) (buf : List Bytes),
      (flush t script buf).exit = .flushed ∨ ∃ rv, (flush t script buf).exit = .fail rv := by
    intro t script buf
    induction buf generalizing t script with
    | nil => exact .inl rfl
    | cons d ds ih =>
      by_cases hd : (t.sendData script d).2.rv = .ok
      · rw [flush_cons_of_ok t script ds hd]
        exact ih _ _
      · rw [flush_cons_of_failed t script ds hd]
        exact .inr ⟨_, rfl⟩
  exact (hflush t script p.sendBuffer).resolve_left h

end Arming

namespace World

/-! ### The property and the condition -/

/-- A user that was refused, whose proxy is not stopped and has a sink, will be woken: a
`CFSEventOnSend` is queued or the actual transport is armed. -/
def Woken (w : World) : Prop :=
  w.proxy.needOnSend = true → w.proxy.stopped = false → w.proxy.sinkActual = true →
    .onSend ∈ w.userQueue ∨ w.tcp.needOnSend = true

/-- The event is a `CFSEventSendData`. -/
def NetEvent.isSendData : NetEvent → Bool
  | .sendData _ => true
  | .disconnect => false

/-- The condition on a step: a send fails, if it does, with `EWOULDBLOCK`, unless it is the
send of a queued event and the transport is already armed; and a `CFSEventOnSend` is not
fired at a waiting proxy without a sink. -/
def SoftSends (w : World) : Action → Prop
  | .fireNet script =>
      w.netQueue.head?.any NetEvent.isSendData = true →
        w.tcp.needOnSend = true ∨ w.tcp.handle ≠ none ∧ .error ∉ script
  | .onOutput script => .error ∉ script
  | .fireUser _ =>
      w.proxy.needOnSend = true → w.userQueue.head? = some .onSend →
        w.proxy.sinkActual = true
  | _ => True

instance (w : World) : ∀ a, Decidable (SoftSends w a)
  | .fireNet _ => inferInstanceAs (Decidable (_ → _))
  | .onOutput _ => inferInstanceAs (Decidable (_ ∉ _))
  | .fireUser _ => inferInstanceAs (Decidable (_ → _))
  | .sendData _ | .openWithSink | .disconnect | .release | .userNext | .onInput | .recv _
  | .onTimer _ | .closeEvent | .netNext | .stopQueue => inferInstanceAs (Decidable True)

/-! ### The invariant -/

/-- The network thread is in an `OnSend` whose flush has succeeded. -/
def NetPos.postsOnSend : NetPos → Prop
  | .sendFlag₁ .flushed true => True
  | .sendFlag₂ .flushed true => True
  | .onSendPost => True
  | _ => False

/-- A wake-up for the user is queued, armed or being produced, or the proxy is stopped. -/
def Answered (w : World) : Prop :=
  .onSend ∈ w.userQueue ∨ w.tcp.needOnSend = true ∨ NetPos.postsOnSend w.net ∨
    w.proxy.stopped = true

/-- What the runs of soft sends keep. -/
structure WakeInv (w : World) : Prop where
  /-- `Send_i` goes to `fail` only with the transport armed -/
  fail : ∀ rv up, w.net = .sendFlag₁ (.fail rv) up ∨ w.net = .sendFlag₂ (.fail rv) up →
    w.tcp.needOnSend = true
  cleared : ∀ up, w.net = .sendFlag₂ .flushed up → w.proxy.isBufferFull = false
  full : w.proxy.isBufferFull = true →
    w.tcp.needOnSend = true ∨ w.net = .sendFlag₁ .flushed true ∨ w.proxy.stopped = true
  reading : ∀ d, w.user = .sendPartial d → Answered w
  waiting : w.proxy.needOnSend = true → Answered w

variable {w w' : World} {a : Action}

theorem wakeInv_init (fd : ℕ) : WakeInv (init fd) := by
  constructor <;> simp [init]

/-- A wake-up stays on its way if each of the places where it can be is kept. -/
theorem Answered.of_parts (hA : Answered w)
    (hm : UserEvent.onSend ∈ w.userQueue → UserEvent.onSend ∈ w'.userQueue)
    (harm : w.tcp.needOnSend = true → w'.tcp.needOnSend = true)
    (hp : NetPos.postsOnSend w.net → NetPos.postsOnSend w'.net)
    (hs : w.proxy.stopped = true → w'.proxy.stopped = true) : Answered w' :=
  Or.imp hm (Or.imp harm (Or.imp hp hs)) hA

/-- A soft `OnSend` upcall flushes the buffer or arms the transport again. -/
private theorem flushed_or_armed (hJ : Wired w) {script : List SendOutcome}
    (hb : w.bound = true) (he : SendOutcome.error ∉ script) :
    (w.proxy.send_i w.tcp.disarm script none).exit = .flushed ∨
      (w.proxy.send_i w.tcp.disarm script none).tcp.needOnSend = true := by
  by_cases hx : (w.proxy.send_i w.tcp.disarm script none).exit = .flushed
  · exact .inl hx
  · obtain ⟨rv, hrv⟩ := send_i_none_exit _ _ _ hx
    have ho : w.tcp.disarm.handle ≠ none := hJ.handle_of_bound hb
    exact .inr (send_i_needOnSend_of_fail _ _ _ ho he hrv)

/-- A wake-up on its way stays on its way until it reaches the user, which then no longer
waits. -/
theorem Answered.trans (hA : Answered w) (hJ : Wired w) (hw : WakeInv w)
    (ha : SoftSends w a) (h : Trans w a w') :
    Answered w' ∨ w'.proxy.needOnSend = false ∧ w'.user = .idle := by
  cases h with
  | fireIgnored c e es hu hq he =>
    rcases hA with hm | hr
    · rw [hq, List.mem_cons] at hm
      rcases hm with rfl | hm
      · rcases Bool.eq_false_or_eq_true w.proxy.needOnSend with hn | hn
        · have hk := ha hn (by simp [hq])
          simp only [hn, hk, Bool.true_eq_false, and_false, false_and, or_false] at he
          exact .inl (.inr (.inr (.inr he)))
        · exact .inr ⟨hn, hu⟩
      · exact .inl (.inl hm)
    · exact .inl (.inr hr)
  | fireCancelled es hu hq hs => exact .inl (.inr (.inr (.inr rfl)))
  | fireIndication es hu hq =>
    refine .inl (hA.imp_left fun hm => ?_)
    simpa [hq] using hm
  | fireReceive c d es hu hq hs hk =>
    refine .inl (hA.imp_left fun hm => ?_)
    simpa [hq] using hm
  | fireOnSend c es hu hq hs hk hn => exact .inr ⟨rfl, hu⟩
  | fireDisconnect c es hu hq hs hk => exact .inl (.inr (.inr (.inr rfl)))
  | fireDisconnectNoSink c es hu hq hs hk => exact .inl (.inr (.inr (.inr rfl)))
  | disconnectStart hu hs => exact .inl (.inr (.inr (.inr rfl)))
  | release => exact .inl (.inr (.inr (.inr rfl)))
  | netSend script d es hn hq =>
    refine .inl (hA.of_parts id (fun harm => send_i_needOnSend_of_armed _ _ _ harm _) ?_ id)
    intro hp
    simp [hn, NetPos.postsOnSend] at hp
  | outputDisarm script hn hb hd =>
    left
    have hk := hJ.sink_of_bound hb
    simp only [hk, hJ.tcp, Bool.true_eq_false, false_or, reduceCtorEq, or_false] at hd
    exact .inr (.inr (.inr hd))
  | outputSend script hn hb harm hk hs =>
    left
    rcases flushed_or_armed hJ hb ha with hx | harm'
    · exact .inr (.inr (.inl (by rw [hx]; trivial)))
    · exact .inr (.inl harm')
  | flag₁ exit upcall hn =>
    refine .inl (hA.of_parts id id ?_ (by simp))
    intro hp
    rw [hn] at hp
    cases exit <;> cases upcall <;> simp_all [NetPos.postsOnSend]
  | flag₂ exit upcall hn =>
    refine .inl (hA.of_parts id id ?_ (by simp))
    intro hp
    rw [hn] at hp
    -- the first flag is already cleared, so the upcall goes on to its post
    have hc := hw.cleared upcall
    cases exit <;> cases upcall <;>
      simp_all [NetPos.postsOnSend, CFSTransportThreadProxy.writeFlag₂]
  | postOnSend hn => exact .inl (.inl (by simp))
  | postReceive d loop hn =>
    refine .inl (hA.of_parts (List.mem_append_left _) id ?_ id)
    intro hp
    simp [hn, NetPos.postsOnSend] at hp
  | closeNoSink a hn hk =>
    left
    rcases hn with ⟨-, hn, -⟩ | ⟨-, hn⟩ <;> simp_all [Answered, NetPos.postsOnSend]
  | closeStopped a hn hk hs => exact .inl (.inr (.inr (.inr hs)))
  | closePost a hn hk hs =>
    left
    rcases hn with ⟨-, hn, -⟩ | ⟨-, hn⟩ <;> simp_all [Answered, NetPos.postsOnSend]
  | _ => exact .inl (by simp_all [Answered, NetPos.postsOnSend, CFSTransportTcp.disconnect])

/-- `Send_i` reaches its `fail` label only with the transport armed. -/
theorem WakeInv.fail_trans (hJ : Wired w) (hw : WakeInv w) (ha : SoftSends w a)
    (h : Trans w a w') (rv : CAWResult) (up : Bool)
    (hn' : w'.net = .sendFlag₁ (.fail rv) up ∨ w'.net = .sendFlag₂ (.fail rv) up) :
    w'.tcp.needOnSend = true := by
  cases h with
  | netSend script d es hn hq =>
    rcases ha (by simp [hq, NetEvent.isSendData]) with harm | ⟨ho, he⟩
    · exact send_i_needOnSend_of_armed _ _ _ harm _
    · simp only [NetPos.sendFlag₁.injEq, reduceCtorEq, or_false] at hn'
      exact send_i_needOnSend_of_fail _ _ _ ho he hn'.1
  | outputSend script hn hb harm hk hs =>
    simp only [NetPos.sendFlag₁.injEq, reduceCtorEq, or_false] at hn'
    exact (flushed_or_armed hJ hb ha).resolve_left (by simp [hn'.1])
  | flag₁ exit upcall hn =>
    simp only [NetPos.sendFlag₂.injEq, reduceCtorEq, false_or] at hn'
    exact hw.fail rv up (.inl (by rw [hn, hn'.1, hn'.2]))
  | flag₂ exit upcall hn => dsimp only at hn'; split at hn' <;> simp at hn'
  | postReceive d loop hn => cases loop <;> simp at hn'
  | _ =>
    first
      | exact hw.fail rv up hn'
      | simp_all

/-- While `m_bIsBufferFull` is set the transport is armed, or the `OnSend` upcall that has
flushed the buffer is about to clear the flag. -/
theorem WakeInv.full_trans (hJ : Wired w) (hw : WakeInv w) (ha : SoftSends w a)
    (h : Trans w a w') (hf : w'.proxy.isBufferFull = true) :
    w'.tcp.needOnSend = true ∨ w'.net = .sendFlag₁ .flushed true ∨
      w'.proxy.stopped = true := by
  cases h with
  | netSend script d es hn hq =>
    rcases hw.full hf with harm | hp | hs
    · exact .inl (send_i_needOnSend_of_armed _ _ _ harm _)
    · simp [hn] at hp
    · exact .inr (.inr hs)
  | outputDisarm script hn hb hd =>
    simp only [hJ.sink_of_bound hb, hJ.tcp, Bool.true_eq_false, false_or, reduceCtorEq,
      or_false] at hd
    exact .inr (.inr hd)
  | outputSend script hn hb harm hk hs =>
    rcases flushed_or_armed hJ hb ha with hx | harm'
    · exact .inr (.inl (by rw [hx]))
    · exact .inl harm'
  | flag₁ exit upcall hn =>
    cases exit with
    | fail rv => exact .inl (hw.fail rv upcall (.inl hn))
    | flushed => simp [CFSTransportThreadProxy.writeFlag₁] at hf
    | direct =>
      rcases hw.full hf with h | h | h
      · exact .inl h
      · simp [hn] at h
      · exact .inr (.inr h)
  | flag₂ exit upcall hn =>
    cases exit with
    | fail rv => exact .inl (hw.fail rv upcall (.inr hn))
    | _ =>
      rcases hw.full (by simpa [CFSTransportThreadProxy.writeFlag₂] using hf) with h | h | h
      · exact .inl h
      · simp [hn] at h
      · exact .inr (.inr h)
  | closeNoSink a hn hk =>
    have hfull := hw.full hf
    rcases hn.net with hn | hn <;> simp_all
  | closePost a hn hk hs =>
    have hfull := hw.full hf
    rcases hn.net with hn | hn <;> simp_all
  | postReceive d loop hn =>
    rcases hw.full hf with h | h | h
    · exact .inl h
    · simp [hn] at h
    · exact .inr (.inr h)
  | _ => have hfull := hw.full; simp_all [CFSTransportTcp.disconnect]

/-- A flush that succeeded has cleared `m_bIsBufferFull` before it writes the second flag. -/
theorem WakeInv.cleared_trans (hw : WakeInv w) (h : Trans w a w') (up : Bool)
    (hn' : w'.net = .sendFlag₂ .flushed up) : w'.proxy.isBufferFull = false := by
  cases h with
  | flag₁ exit upcall hn =>
    obtain ⟨rfl, -⟩ : exit = .flushed ∧ upcall = up := by simpa using hn'
    rfl
  | flag₂ exit upcall hn => dsimp only at hn'; split at hn' <;> simp at hn'
  | postReceive d loop hn => cases loop <;> simp at hn'
  | _ =>
    first
      | exact hw.cleared up hn'
      | simp_all

/-- A `SendData` that has found the buffer full is going to be answered. -/
theorem WakeInv.reading_trans (hJ : Wired w) (hw : WakeInv w) (ha : SoftSends w a)
    (h : Trans w a w') (d : Bytes) (hu : w'.user = .sendPartial d) : Answered w' := by
  have key : Answered w → Answered w' := fun hA =>
    (hA.trans hJ hw ha h).resolve_right fun hidle => by simp [hu] at hidle
  cases h with
  | sendIsFull d' hu' hf =>
    rcases hw.full hf with h | h | h
    · exact .inr (.inl h)
    · exact .inr (.inr (.inl (by rw [h]; trivial)))
    · exact .inr (.inr (.inr h))
  | _ =>
    first
      | exact key (hw.reading d hu)
      | simp_all

/-- A refused sender is going to be answered. -/
theorem WakeInv.waiting_trans (hJ : Wired w) (hw : WakeInv w) (ha : SoftSends w a)
    (h : Trans w a w') (hn : w'.proxy.needOnSend = true) : Answered w' := by
  have key : Answered w → Answered w' := fun hA =>
    (hA.trans hJ hw ha h).resolve_right fun hidle => by simp [hn] at hidle
  cases h with
  | sendRefuse d hu hp => exact key (hw.reading d hu)
  | fireOnSend c es hu hq hs hk hn' => simp at hn
  | flag₁ exit upcall hn' => exact key (hw.waiting (by simpa using hn))
  | flag₂ exit upcall hn' => exact key (hw.waiting (by simpa using hn))
  | _ => exact key (hw.waiting hn)

theorem WakeInv.trans (hJ : Wired w) (hw : WakeInv w) (ha : SoftSends w a)
    (h : Trans w a w') : WakeInv w' where
  fail := hw.fail_trans hJ ha h
  cleared := hw.cleared_trans h
  full := hw.full_trans hJ ha h
  reading := hw.reading_trans hJ ha h
  waiting := hw.waiting_trans hJ ha h

/-! ### The results -/

/-- **Wake-up under soft sends.** In every state reached by steps that meet `SoftSends` a
refused sender is woken, unless the network thread is inside the `OnSend` that is about to post
its `CFSEventOnSend`. -/
theorem woken_of_softSends (fd : ℕ) (h : Reach step SoftSends (init fd) w)
    (hp : ¬NetPos.postsOnSend w.net) : Woken w := by
  have hI : WakeInv w := h.induct_of (fun _ hs => wired_of_reach hs) (wakeInv_init fd)
    fun _ _ _ hJ hs ha hstep => hs.trans hJ ha (trans_of_step hstep)
  intro hn hs _
  have hA := hI.waiting hn
  simpa [Answered, hp, hs] using hA

/-- A refused sender whose transport is armed: the first send meets `EWOULDBLOCK`, the
second fails hard while the transport is armed, the third is refused. -/
theorem woken_of_softSends_refused :
    ∃ w, Reach step SoftSends (init 3) w ∧ w.proxy.needOnSend = true ∧
      w.proxy.stopped = false ∧ w.proxy.sinkActual = true ∧ ¬NetPos.postsOnSend w.net ∧
      Woken w := by
  have hrun : Reach step SoftSends (init 3) _ := reach_of_exec
    [.fireUser false, .openWithSink, .sendData [1], .userNext, .userNext,
      .fireNet [.wouldBlock], .netNext, .netNext, .sendData [2], .userNext, .userNext,
      .userNext, .fireNet [.error], .netNext, .netNext, .sendData [3], .userNext, .userNext]
    (by decide) rfl
  exact ⟨_, hrun, rfl, rfl, rfl, id, woken_of_softSends 3 hrun id⟩

/-- **A sender that nothing wakes.** The send event of the first `SendData` fails with an
error other than `EWOULDBLOCK`, so the buffer counts as full and the transport is not
armed; the second `SendData` is refused. Both threads are idle, nothing is queued. -/
theorem not_woken_of_hard_error :
    ∃ w, Reachable step (init 3) w ∧ w.net = .idle ∧ w.user = .idle ∧ w.userQueue = [] ∧
      w.netQueue = [] ∧ ¬Woken w := by
  have hrun : Reachable step (init 3) _ := reachable_of_exec
    [.fireUser false, .openWithSink, .sendData [1], .userNext, .userNext,
      .fireNet [.error], .netNext, .netNext, .sendData [2], .userNext, .userNext] rfl
  refine ⟨_, hrun, rfl, rfl, rfl, rfl, fun h => ?_⟩
  exact absurd (h rfl rfl rfl) (by decide)

end World

end VosStack
