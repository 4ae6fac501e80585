import VosStack.Transport.Proxy

/-!
# What one step of a connection can do

`World.Trans w a w'` lists the transitions of `World.step` one by one: the tests that were
passed and the state that results. `trans_of_step` is the inversion of the step function;
the invariants of the connection are proved by cases on it, and no later proof unfolds
`World.step`.

The first part has the facts about `Send_i` that several invariants use.
-/

namespace VosStack

/-! ### What `Send_i` does -/

section Flush

variable (t : CFSTransportTcp) (script : List SendOutcome)

/-- The flush loop unfolded at a failing front item. -/
theorem flush_cons_of_failed {d : Bytes} (ds : List Bytes)
    (h : (t.sendData script d).2.rv ≠ .ok) :
    flush t script (d :: ds) =
      ⟨(t.sendData script d).1, (t.sendData script d).2.rest :: ds,
        (t.sendData script d).2.written, .fail (t.sendData script d).2.rv⟩ := by
  simp [flush, h]

/-- The flush loop unfolded at a front item that is sent. -/
theorem flush_cons_of_ok {d : Bytes} (ds : List Bytes)
    (h : (t.sendData script d).2.rv = .ok) :
    flush t script (d :: ds) =
      { flush (t.sendData script d).1 (t.sendData script d).2.script ds with
        written := (t.sendData script d).2.written ++
          (flush (t.sendData script d).1 (t.sendData script d).2.script ds).written } := by
  have hf : ¬(t.sendData script d).2.rv.failed = true := by simp [h]
  simp only [flush, if_neg hf]

/-- Flushing moves bytes from the front of the buffer to the socket and does nothing else
to them. -/
theorem flush_written_append_sendBuffer (buf : List Bytes) :
    (flush t script buf).written ++ (flush t script buf).sendBuffer.flatten = buf.flatten := by
  induction buf generalizing t script with
  | nil => rfl
  | cons d ds ih =>
    have hd := t.sendData_written_append_rest script d
    by_cases h : (t.sendData script d).2.rv = .ok
    · rw [flush_cons_of_ok t script ds h]
      have hrest := t.sendData_rest_of_ok script d h
      rw [hrest, List.append_nil] at hd
      simp only [List.append_assoc, ih, hd, List.flatten_cons]
    · rw [flush_cons_of_failed t script ds h]
      simp only [List.flatten_cons, ← List.append_assoc, hd]

/-- Flushing changes the transport only in its `m_bNeedOnSend` flag. -/
theorem flush_tcp (buf : List Bytes) :
    ∃ b, (flush t script buf).tcp = { t with needOnSend := b } := by
  induction buf generalizing t script with
  | nil => exact ⟨_, rfl⟩
  | cons d ds ih =>
    by_cases h : (t.sendData script d).2.rv = .ok
    · rw [flush_cons_of_ok t script ds h]
      obtain ⟨b, hb⟩ := ih (t.sendData script d).1 (t.sendData script d).2.script
      exact ⟨b, by simp [hb]⟩
    · rw [flush_cons_of_failed t script ds h]
      exact ⟨_, t.sendData_fst script d⟩

end Flush

namespace CFSTransportThreadProxy

variable (p : CFSTransportThreadProxy) (t : CFSTransportTcp) (script : List SendOutcome)

/-- `Send_i` changes the transport only in its `m_bNeedOnSend` flag. -/
theorem send_i_tcp (aData : Option Bytes) :
    ∃ b, (p.send_i t script aData).tcp = { t with needOnSend := b } := by
  unfold send_i
  cases aData with
  | none => exact flush_tcp t script _
  | some d =>
    dsimp only
    split_ifs
    · exact ⟨_, t.sendData_fst script d⟩
    · exact ⟨_, t.sendData_fst script d⟩
    · exact flush_tcp t script _

@[simp] theorem send_i_handle (aData : Option Bytes) :
    (p.send_i t script aData).tcp.handle = t.handle := by
  obtain ⟨b, hb⟩ := p.send_i_tcp t script aData
  rw [hb]

@[simp] theorem send_i_sink (aData : Option Bytes) :
    (p.send_i t script aData).tcp.sink = t.sink := by
  obtain ⟨b, hb⟩ := p.send_i_tcp t script aData
  rw [hb]

@[simp] theorem send_i_rereceive (aData : Option Bytes) :
    (p.send_i t script aData).tcp.rereceive = t.rereceive := by
  obtain ⟨b, hb⟩ := p.send_i_tcp t script aData
  rw [hb]

/-- **Conservation in `Send_i`.** A TCP proxy's `Send_i` neither loses nor reorders bytes:
the buffer followed by the new data is what was written followed by the new buffer. -/
theorem send_i_written_append_sendBuffer (htcp : p.type = .tcp) (aData : Option Bytes) :
    (p.send_i t script aData).written ++ (p.send_i t script aData).sendBuffer.flatten =
      p.sendBuffer.flatten ++ aData.getD [] := by
  cases aData with
  | none => simp [send_i, flush_written_append_sendBuffer]
  | some d =>
    by_cases he : p.sendBuffer = []
    · have hd := t.sendData_written_append_rest script d
      by_cases h : (t.sendData script d).2.rv = .ok
      · have hrest := t.sendData_rest_of_ok script d h
        rw [hrest, List.append_nil] at hd
        simp [send_i, he, h, hd]
      · simp [send_i, he, h, hd, htcp]
    · simp [send_i, he, flush_written_append_sendBuffer]

/-! The flag writes change the flags and nothing else. -/

@[simp] theorem writeFlag₁_type (e : SendExit) : (p.writeFlag₁ e).type = p.type := by
  cases e <;> rfl

@[simp] theorem writeFlag₁_stopped (e : SendExit) : (p.writeFlag₁ e).stopped = p.stopped := by
  cases e <;> rfl

@[simp] theorem writeFlag₁_sinkActual (e : SendExit) :
    (p.writeFlag₁ e).sinkActual = p.sinkActual := by
  cases e <;> rfl

@[simp] theorem writeFlag₁_needOnSend (e : SendExit) :
    (p.writeFlag₁ e).needOnSend = p.needOnSend := by
  cases e <;> rfl

@[simp] theorem writeFlag₁_sendBuffer (e : SendExit) :
    (p.writeFlag₁ e).sendBuffer = p.sendBuffer := by
  cases e <;> rfl

@[simp] theorem writeFlag₂_type (e : SendExit) : (p.writeFlag₂ e).type = p.type := by
  cases e <;> rfl

@[simp] theorem writeFlag₂_stopped (e : SendExit) : (p.writeFlag₂ e).stopped = p.stopped := by
  cases e <;> rfl

@[simp] theorem writeFlag₂_sinkActual (e : SendExit) :
    (p.writeFlag₂ e).sinkActual = p.sinkActual := by
  cases e <;> rfl

@[simp] theorem writeFlag₂_needOnSend (e : SendExit) :
    (p.writeFlag₂ e).needOnSend = p.needOnSend := by
  cases e <;> rfl

@[simp] theorem writeFlag₂_sendBuffer (e : SendExit) :
    (p.writeFlag₂ e).sendBuffer = p.sendBuffer := by
  cases e <;> rfl

end CFSTransportThreadProxy

namespace World

/-! ### The transitions -/

/-- The reactor closes the transport: on a close event, or because `OnInput` returned a
negative value. -/
def ClosedBy (w : World) (a : Action) : Prop :=
  a = .closeEvent ∧ w.net = .idle ∧ w.bound = true ∨ a = .recv .closed ∧ w.net = .inputLoop

theorem ClosedBy.net {w : World} {a : Action} (h : ClosedBy w a) :
    w.net = .idle ∨ w.net = .inputLoop :=
  h.imp (fun h => h.2.1) fun h => h.2

/-- The transitions of the connection. -/
inductive Trans (w : World) : Action → World → Prop
  | sendStopped (d : Bytes) (hu : w.user = .idle) (hs : w.proxy.stopped = true) :
      Trans w (.sendData d) { w with log := w.log ++ [.sendData d .ok true] }
  | sendStart (d : Bytes) (hu : w.user = .idle) (hs : w.proxy.stopped = false) :
      Trans w (.sendData d) { w with user := .sendFull d }
  | openWithSink (hu : w.user = .idle) :
      Trans w .openWithSink
        { w with proxy := { w.proxy with sinkActual := true }, opened := true }
  | disconnectAgain (hu : w.user = .idle) (hs : w.proxy.stopped = true) :
      Trans w .disconnect { w with log := w.log ++ [.disconnect] }
  | disconnectStart (hu : w.user = .idle) (hs : w.proxy.stopped = false) :
      Trans w .disconnect
        { w with
          proxy := { w.proxy with stopped := true, sinkActual := false }
          user := .disconnectPost }
  | release : Trans w .release { w with proxy := { w.proxy with stopped := true } }
  | sendNotFull (d : Bytes) (hu : w.user = .sendFull d) (hf : w.proxy.isBufferFull = false) :
      Trans w .userNext { w with user := .sendPost d }
  | sendIsFull (d : Bytes) (hu : w.user = .sendFull d) (hf : w.proxy.isBufferFull = true) :
      Trans w .userNext { w with user := .sendPartial d }
  | sendWasPartial (d : Bytes) (hu : w.user = .sendPartial d)
      (hp : w.proxy.partialDataLastTime = true) :
      Trans w .userNext { w with user := .sendPost d }
  | sendRefuse (d : Bytes) (hu : w.user = .sendPartial d)
      (hp : w.proxy.partialDataLastTime = false) :
      Trans w .userNext
        { w with
          proxy := { w.proxy with needOnSend := true }
          user := .idle
          log := w.log ++ [.sendData d .partialData false] }
  | sendReject (d : Bytes) (hu : w.user = .sendPost d) (hq : w.netStopped = true) :
      Trans w .userNext
        { w with user := .idle, log := w.log ++ [.sendData d .notInitialized false] }
  | sendAccept (d : Bytes) (hu : w.user = .sendPost d) (hq : w.netStopped = false) :
      Trans w .userNext
        { w with
          netQueue := w.netQueue ++ [.sendData d]
          user := .idle
          log := w.log ++ [.sendData d .ok false] }
  | disconnectReject (hu : w.user = .disconnectPost) (hq : w.netStopped = true) :
      Trans w .userNext { w with user := .idle, log := w.log ++ [.disconnect] }
  | disconnectAccept (hu : w.user = .disconnectPost) (hq : w.netStopped = false) :
      Trans w .userNext
        { w with
          netQueue := w.netQueue ++ [.disconnect]
          user := .idle
          log := w.log ++ [.disconnect] }
  | fireIgnored (c : Bool) (e : UserEvent) (es : List UserEvent) (hu : w.user = .idle)
      (hq : w.userQueue = e :: es)
      (h : w.proxy.stopped = true ∨ e = .onSend ∧ w.proxy.needOnSend = false ∨
        w.proxy.sinkActual = false ∧ (e = .onSend ∨ ∃ d, e = .onReceive d)) :
      Trans w (.fireUser c) { w with userQueue := es }
  | fireCancelled (es : List UserEvent) (hu : w.user = .idle)
      (hq : w.userQueue = .onConnectIndication :: es) (hs : w.proxy.stopped = false) :
      Trans w (.fireUser true)
        { w with
          userQueue := es
          proxy := { w.proxy with stopped := true, sinkActual := false }
          user := .disconnectPost }
  | fireIndication (es : List UserEvent) (hu : w.user = .idle)
      (hq : w.userQueue = .onConnectIndication :: es) :
      Trans w (.fireUser false) { w with userQueue := es, indicated := true }
  | fireReceive (c : Bool) (d : Bytes) (es : List UserEvent) (hu : w.user = .idle)
      (hq : w.userQueue = .onReceive d :: es) (hs : w.proxy.stopped = false)
      (hk : w.proxy.sinkActual = true) :
      Trans w (.fireUser c) { w with userQueue := es, log := w.log ++ [.onReceive d] }
  | fireOnSend (c : Bool) (es : List UserEvent) (hu : w.user = .idle)
      (hq : w.userQueue = .onSend :: es) (hs : w.proxy.stopped = false)
      (hk : w.proxy.sinkActual = true) (hn : w.proxy.needOnSend = true) :
      Trans w (.fireUser c)
        { w with
          userQueue := es
          proxy := { w.proxy with needOnSend := false }
          log := w.log ++ [.onSend] }
  | fireDisconnect (c : Bool) (es : List UserEvent) (hu : w.user = .idle)
      (hq : w.userQueue = .onDisconnect :: es) (hs : w.proxy.stopped = false)
      (hk : w.proxy.sinkActual = true) :
      Trans w (.fireUser c)
        { w with
          userQueue := es
          proxy := { w.proxy with stopped := true }
          log := w.log ++ [.onDisconnect] }
  | fireDisconnectNoSink (c : Bool) (es : List UserEvent) (hu : w.user = .idle)
      (hq : w.userQueue = .onDisconnect :: es) (hs : w.proxy.stopped = false)
      (hk : w.proxy.sinkActual = false) :
      Trans w (.fireUser c)
        { w with userQueue := es, proxy := { w.proxy with stopped := true } }
  | netSend (script : List SendOutcome) (d : Bytes) (es : List NetEvent)
      (hn : w.net = .idle) (hq : w.netQueue = .sendData d :: es) :
      Trans w (.fireNet script)
        { w with
          netQueue := es
          tcp := (w.proxy.send_i w.tcp script (some d)).tcp
          proxy := { w.proxy with
            sendBuffer := (w.proxy.send_i w.tcp script (some d)).sendBuffer }
          wire := w.wire ++ (w.proxy.send_i w.tcp script (some d)).written
          net := .sendFlag₁ (w.proxy.send_i w.tcp script (some d)).exit false }
  | netDisconnect (script : List SendOutcome) (es : List NetEvent) (hn : w.net = .idle)
      (hq : w.netQueue = .disconnect :: es) :
      Trans w (.fireNet script)
        { w with
          netQueue := es
          tcp := w.tcp.disconnect
          bound := w.bound && w.tcp.handle.isNone }
  | outputUnarmed (script : List SendOutcome) (hn : w.net = .idle) (hb : w.bound = true)
      (ha : w.tcp.needOnSend = false) : Trans w (.onOutput script) w
  | outputDisarm (script : List SendOutcome) (hn : w.net = .idle) (hb : w.bound = true)
      (h : w.tcp.sink = false ∨ w.proxy.stopped = true ∨ w.proxy.type = .udp) :
      Trans w (.onOutput script) { w with tcp := w.tcp.disarm }
  | outputSend (script : List SendOutcome) (hn : w.net = .idle) (hb : w.bound = true)
      (ha : w.tcp.needOnSend = true) (hk : w.tcp.sink = true)
      (hs : w.proxy.stopped = false) :
      Trans w (.onOutput script)
        { w with
          tcp := (w.proxy.send_i w.tcp.disarm script none).tcp
          proxy := { w.proxy with
            sendBuffer := (w.proxy.send_i w.tcp.disarm script none).sendBuffer }
          wire := w.wire ++ (w.proxy.send_i w.tcp.disarm script none).written
          net := .sendFlag₁ (w.proxy.send_i w.tcp.disarm script none).exit true }
  | input (hn : w.net = .idle) (hb : w.bound = true) :
      Trans w .onInput { w with net := .inputLoop }
  | recvDrop (b : UInt8) (bs : Bytes) (hn : w.net = .inputLoop)
      (h : w.tcp.sink = false ∨ w.proxy.stopped = true) :
      Trans w (.recv (.data b bs)) { w with rcvd := w.rcvd ++ b :: bs, net := .inputLoop }
  | recvPost (b : UInt8) (bs : Bytes) (hn : w.net = .inputLoop) (hk : w.tcp.sink = true)
      (hs : w.proxy.stopped = false) :
      Trans w (.recv (.data b bs))
        { w with rcvd := w.rcvd ++ b :: bs, net := .receivePost (b :: bs) true }
  | recvBlock (available : Bool) (hn : w.net = .inputLoop) :
      Trans w (.recv (.wouldBlock available))
        { w with
          tcp := { w.tcp with rereceive := w.tcp.rereceive || available }
          net := .idle }
  | timerIdle (r : RecvOutcome) (hn : w.net = .idle) (ht : w.tcp.rereceive = true) :
      Trans w (.onTimer r) { w with tcp := { w.tcp with rereceive := false } }
  | timerDrop (b : UInt8) (bs : Bytes) (hn : w.net = .idle) (ht : w.tcp.rereceive = true)
      (h : w.tcp.sink = false ∨ w.proxy.stopped = true) :
      Trans w (.onTimer (.data b bs))
        { w with
          tcp := { w.tcp with rereceive := false }
          rcvd := w.rcvd ++ b :: bs
          net := .idle }
  | timerPost (b : UInt8) (bs : Bytes) (hn : w.net = .idle) (ht : w.tcp.rereceive = true)
      (hk : w.tcp.sink = true) (hs : w.proxy.stopped = false) :
      Trans w (.onTimer (.data b bs))
        { w with
          tcp := { w.tcp with rereceive := false }
          rcvd := w.rcvd ++ b :: bs
          net := .receivePost (b :: bs) false }
  | closeNoSink (a : Action) (hn : ClosedBy w a) (hk : w.tcp.sink = false) :
      Trans w a { w with bound := false, net := .idle }
  | closeStopped (a : Action) (hn : ClosedBy w a) (hk : w.tcp.sink = true)
      (hs : w.proxy.stopped = true) :
      Trans w a
        { w with
          bound := false
          tcp := { w.tcp with rereceive := false, handle := none, sink := false }
          net := .idle }
  | closePost (a : Action) (hn : ClosedBy w a) (hk : w.tcp.sink = true)
      (hs : w.proxy.stopped = false) :
      Trans w a
        { w with
          bound := false
          tcp := { w.tcp with rereceive := false, handle := none, sink := false }
          net := .onDisconnectPost }
  | flag₁ (exit : SendExit) (upcall : Bool) (hn : w.net = .sendFlag₁ exit upcall) :
      Trans w .netNext
        { w with proxy := w.proxy.writeFlag₁ exit, net := .sendFlag₂ exit upcall }
  | flag₂ (exit : SendExit) (upcall : Bool) (hn : w.net = .sendFlag₂ exit upcall) :
      Trans w .netNext
        { w with
          proxy := w.proxy.writeFlag₂ exit
          net := if upcall && !(w.proxy.writeFlag₂ exit).isBufferFull then .onSendPost
            else .idle }
  | postOnSend (hn : w.net = .onSendPost) :
      Trans w .netNext { w with userQueue := w.userQueue ++ [.onSend], net := .idle }
  | postReceive (d : Bytes) (loop : Bool) (hn : w.net = .receivePost d loop) :
      Trans w .netNext
        { w with
          userQueue := w.userQueue ++ [.onReceive d]
          net := if loop then .inputLoop else .idle }
  | postDisconnect (hn : w.net = .onDisconnectPost) :
      Trans w .netNext { w with userQueue := w.userQueue ++ [.onDisconnect], net := .idle }
  | stopQueue : Trans w .stopQueue { w with netStopped := true }

variable {w w' : World}

private theorem trans_of_userNext (h : w.userNext = some w') : Trans w .userNext w' := by
  unfold userNext at h
  split at h
  case h_1 => simp at h
  case h_2 d hu =>
    obtain rfl := Option.some.inj h
    split
    case isTrue hf => exact .sendIsFull d hu hf
    case isFalse hf => exact .sendNotFull d hu (by simpa using hf)
  case h_3 d hu =>
    split at h <;> obtain rfl := Option.some.inj h
    case isTrue hp => exact .sendWasPartial d hu hp
    case isFalse hp => exact .sendRefuse d hu (by simpa using hp)
  case h_4 d hu =>
    obtain rfl := Option.some.inj h
    cases hq : w.netStopped with
    | true => simpa [postNet, hq] using Trans.sendReject d hu hq
    | false => simpa [postNet, hq] using Trans.sendAccept d hu hq
  case h_5 hu =>
    obtain rfl := Option.some.inj h
    cases hq : w.netStopped with
    | true => simpa [postNet, hq] using Trans.disconnectReject hu hq
    | false => simpa [postNet, hq] using Trans.disconnectAccept hu hq

private theorem trans_of_fireUser {c : Bool} (h : w.fireUser c = some w') :
    Trans w (.fireUser c) w' := by
  unfold fireUser at h
  split at h
  case isFalse => simp at h
  case isTrue hu =>
  split at h
  case h_1 => simp at h
  case h_2 e es hq =>
  obtain rfl := Option.some.inj h
  cases hs : w.proxy.stopped with
  | true =>
    have hstop := Trans.fireIgnored c e es hu hq (.inl hs)
    cases e with
    | onConnectIndication =>
      cases c with
      | true => simpa [fire, hs] using hstop
      | false => simpa [fire] using Trans.fireIndication es hu hq
    | onReceive d => simpa [fire, hs] using hstop
    | onSend => simpa [fire, hs] using hstop
    | onDisconnect => simpa [fire, hs] using hstop
  | false =>
    cases e with
    | onConnectIndication =>
      cases c with
      | true => simpa [fire, hs] using Trans.fireCancelled es hu hq hs
      | false => simpa [fire] using Trans.fireIndication es hu hq
    | onReceive d =>
      cases hk : w.proxy.sinkActual with
      | true => simpa [fire, hs, hk] using Trans.fireReceive c d es hu hq hs hk
      | false =>
        simpa [fire, hs, hk] using Trans.fireIgnored c _ es hu hq (.inr (.inr ⟨hk, by simp⟩))
    | onSend =>
      cases hk : w.proxy.sinkActual with
      | false =>
        simpa [fire, hs, hk] using Trans.fireIgnored c _ es hu hq (.inr (.inr ⟨hk, by simp⟩))
      | true =>
        cases hn : w.proxy.needOnSend with
        | true => simpa [fire, hs, hk, hn] using Trans.fireOnSend c es hu hq hs hk hn
        | false =>
          simpa [fire, hs, hk, hn] using
            Trans.fireIgnored c _ es hu hq (.inr (.inl ⟨rfl, hn⟩))
    | onDisconnect =>
      cases hk : w.proxy.sinkActual with
      | true => simpa [fire, hs, hk] using Trans.fireDisconnect c es hu hq hs hk
      | false => simpa [fire, hs, hk] using Trans.fireDisconnectNoSink c es hu hq hs hk

private theorem trans_of_fireNet {script : List SendOutcome}
    (h : w.fireNet script = some w') : Trans w (.fireNet script) w' := by
  unfold fireNet at h
  split at h
  case isFalse => simp at h
  case isTrue hn =>
  split at h
  case h_1 => simp at h
  case h_2 d es hq =>
    obtain rfl := Option.some.inj h
    exact .netSend script d es hn hq
  case h_3 es hq =>
    obtain rfl := Option.some.inj h
    exact .netDisconnect script es hn hq

private theorem trans_of_onOutput {script : List SendOutcome}
    (h : w.onOutput script = some w') : Trans w (.onOutput script) w' := by
  unfold onOutput at h
  split at h
  case isFalse => simp at h
  case isTrue hnb =>
  obtain ⟨hn, hb⟩ := hnb
  split at h
  case isFalse ha =>
    obtain rfl := Option.some.inj h
    exact .outputUnarmed script hn hb (by simpa using ha)
  case isTrue ha =>
  split at h
  case isFalse hk =>
    obtain rfl := Option.some.inj h
    exact .outputDisarm script hn hb (.inl (by simpa using hk))
  case isTrue hk =>
  split at h
  case isTrue hs =>
    obtain rfl := Option.some.inj h
    exact .outputDisarm script hn hb (.inr (.inl hs))
  case isFalse hs =>
  split at h
  case isTrue hud =>
    obtain rfl := Option.some.inj h
    exact .outputDisarm script hn hb (.inr (.inr hud))
  case isFalse =>
    obtain rfl := Option.some.inj h
    exact .outputSend script hn hb ha hk (by simpa using hs)

private theorem trans_of_onClose {a : Action} (hn : ClosedBy w a) : Trans w a w.onClose := by
  cases hk : w.tcp.sink with
  | false => simpa [onClose, hk] using Trans.closeNoSink a hn hk
  | true =>
    cases hs : w.proxy.stopped with
    | true =>
      simpa [onClose, hk, hs, CFSTransportTcp.close_t] using Trans.closeStopped a hn hk hs
    | false =>
      simpa [onClose, hk, hs, CFSTransportTcp.close_t, CFSTransportTcp.disconnect] using
        Trans.closePost a hn hk hs

/-- `OnReceive` drops the bytes or is about to post them. -/
private theorem onReceive_cases (w : World) (d : Bytes) (loop : Bool) :
    (w.tcp.sink = false ∨ w.proxy.stopped = true) ∧
        w.onReceive d loop =
          { w with rcvd := w.rcvd ++ d, net := if loop then .inputLoop else .idle } ∨
      w.tcp.sink = true ∧ w.proxy.stopped = false ∧
        w.onReceive d loop = { w with rcvd := w.rcvd ++ d, net := .receivePost d loop } := by
  unfold onReceive
  by_cases hk : w.tcp.sink = true
  · by_cases hs : w.proxy.stopped = true
    · exact .inl ⟨.inr hs, by rw [if_pos hk, if_pos hs]⟩
    · exact .inr ⟨hk, by simpa using hs, by rw [if_pos hk, if_neg hs]⟩
  · exact .inl ⟨.inl (by simpa using hk), by rw [if_neg hk]⟩

private theorem trans_of_recv {r : RecvOutcome} (h : w.recv r = some w') :
    Trans w (.recv r) w' := by
  unfold recv at h
  split at h
  case isFalse => simp at h
  case isTrue hn =>
  cases r with
  | data b bs =>
    obtain rfl := Option.some.inj h
    rcases onReceive_cases w (b :: bs) true with ⟨hd, heq⟩ | ⟨hk, hs, heq⟩
    · rw [heq]
      exact .recvDrop b bs hn hd
    · rw [heq]
      exact .recvPost b bs hn hk hs
  | wouldBlock available =>
    obtain rfl := Option.some.inj h
    exact .recvBlock available hn
  | closed =>
    obtain rfl := Option.some.inj h
    exact trans_of_onClose (.inr ⟨rfl, hn⟩)

private theorem trans_of_onTimer {r : RecvOutcome} (h : w.onTimer r = some w') :
    Trans w (.onTimer r) w' := by
  unfold onTimer at h
  split at h
  case isFalse => simp at h
  case isTrue hnt =>
  obtain ⟨hn, ht⟩ := hnt
  cases r with
  | data b bs =>
    obtain rfl := Option.some.inj h
    rcases onReceive_cases { w with tcp := { w.tcp with rereceive := false } } (b :: bs) false
      with ⟨hd, heq⟩ | ⟨hk, hs, heq⟩
    · rw [heq]
      exact .timerDrop b bs hn ht hd
    · rw [heq]
      exact .timerPost b bs hn ht hk hs
  | wouldBlock available =>
    obtain rfl := Option.some.inj h
    exact .timerIdle _ hn ht
  | closed =>
    obtain rfl := Option.some.inj h
    exact .timerIdle _ hn ht

private theorem trans_of_netNext (h : w.netNext = some w') : Trans w .netNext w' := by
  unfold netNext at h
  split at h
  case h_1 => simp at h
  case h_2 => simp at h
  case h_3 exit upcall hn =>
    obtain rfl := Option.some.inj h
    exact .flag₁ exit upcall hn
  case h_4 exit upcall hn =>
    obtain rfl := Option.some.inj h
    exact .flag₂ exit upcall hn
  case h_5 hn =>
    obtain rfl := Option.some.inj h
    exact .postOnSend hn
  case h_6 d loop hn =>
    obtain rfl := Option.some.inj h
    exact .postReceive d loop hn
  case h_7 hn =>
    obtain rfl := Option.some.inj h
    exact .postDisconnect hn

/-- **Inversion of the step function.** -/
theorem trans_of_step {a : Action} (h : w.step a = some w') : Trans w a w' := by
  cases a with
  | sendData d =>
    simp only [step, sendData] at h
    split at h
    case isFalse => simp at h
    case isTrue hu =>
    split at h <;> obtain rfl := Option.some.inj h
    case isTrue hs => exact .sendStopped d hu hs
    case isFalse hs => exact .sendStart d hu (by simpa using hs)
  | openWithSink =>
    simp only [step, openWithSink] at h
    split at h
    case isFalse => simp at h
    case isTrue hu =>
      obtain rfl := Option.some.inj h
      exact .openWithSink hu
  | disconnect =>
    simp only [step, disconnect] at h
    split at h
    case isFalse => simp at h
    case isTrue hu =>
    split at h <;> obtain rfl := Option.some.inj h
    case isTrue hs => exact .disconnectAgain hu hs
    case isFalse hs => exact .disconnectStart hu (by simpa using hs)
  | release =>
    obtain rfl := Option.some.inj h
    exact .release
  | fireUser c => exact trans_of_fireUser h
  | userNext => exact trans_of_userNext h
  | fireNet script => exact trans_of_fireNet h
  | onOutput script => exact trans_of_onOutput h
  | onInput =>
    simp only [step, onInput] at h
    split at h
    case isFalse => simp at h
    case isTrue hn =>
      obtain rfl := Option.some.inj h
      exact .input hn.1 hn.2
  | recv r => exact trans_of_recv h
  | onTimer r => exact trans_of_onTimer h
  | closeEvent =>
    simp only [step, closeEvent] at h
    split at h
    case isFalse => simp at h
    case isTrue hn =>
      obtain rfl := Option.some.inj h
      exact trans_of_onClose (.inl ⟨rfl, hn⟩)
  | netNext => exact trans_of_netNext h
  | stopQueue =>
    obtain rfl := Option.some.inj h
    exact .stopQueue

/-! ### The wiring -/

/-- The network thread is inside `OnEpollInput`. -/
def NetPos.inLoop : NetPos → Bool
  | .inputLoop => true
  | .receivePost _ loop => loop
  | _ => false

/-- How the pieces hang together: the reactor knows only transports that are open and have
a sink, and it is in the receive loop only of such a transport. -/
structure Wired (w : World) : Prop where
  tcp : w.proxy.type = .tcp
  sink_of_bound : w.bound = true → w.tcp.sink = true
  handle_of_bound : w.bound = true → w.tcp.handle ≠ none
  bound_of_inLoop : NetPos.inLoop w.net = true → w.bound = true
  sink_of_rereceive : w.tcp.rereceive = true → w.tcp.sink = true

theorem wired_init (fd : ℕ) : Wired (init fd) := by
  constructor <;> simp [init, NetPos.inLoop]

theorem Wired.trans {a : Action} (hw : Wired w) (h : Trans w a w') : Wired w' := by
  obtain ⟨htcp, hsink, hopen, hloop, htimer⟩ := hw
  cases h with
  | netDisconnect script es hn hq =>
    -- a bound transport has a descriptor, so `RemoveHandler` finds and unbinds it
    have hb : (w.bound && w.tcp.handle.isNone) = false := by
      cases hb : w.bound with
      | false => rfl
      | true => simpa [Option.isSome_iff_ne_none] using hopen hb
    refine ⟨htcp, ?_, ?_, ?_, ?_⟩ <;> simp_all [NetPos.inLoop, CFSTransportTcp.disconnect]
  | recvBlock available hn =>
    have hb : w.bound = true := hloop (by simp [hn, NetPos.inLoop])
    refine ⟨htcp, hsink, hopen, by simp [NetPos.inLoop], fun _ => hsink hb⟩
  | postReceive d loop hn =>
    refine ⟨htcp, hsink, hopen, fun h => hloop ?_, htimer⟩
    cases loop <;> simp_all [NetPos.inLoop]
  | flag₂ exit upcall hn =>
    refine ⟨by simpa using htcp, hsink, hopen, fun h => ?_, htimer⟩
    dsimp only at h
    split at h <;> simp [NetPos.inLoop] at h
  | _ =>
    -- the user thread touches nothing of the wiring
    first
    | exact ⟨htcp, hsink, hopen, hloop, htimer⟩
    | constructor <;> simp_all [NetPos.inLoop, CFSTransportTcp.disarm]

/-- The wiring holds in every state reached, whatever the steps are restricted to. -/
theorem wired_of_reach {ok : World → Action → Prop} {fd : ℕ}
    (h : Transition.Reach step ok (init fd) w) : Wired w :=
  h.induct (wired_init fd) fun _ _ _ hw _ hs => hw.trans (trans_of_step hs)

end World

end VosStack
