import VosStack.Transport.Inversion

/-!
# No byte is lost, duplicated or reordered

The bytes that the user has handed over with a successful `SendData` are at any moment in
one of three places: on the wire, in `m_SendBuffer`, or in a `CFSEventSendData` of the
network thread's queue. `Conserved` says that the three, concatenated in this order, are
exactly the accepted bytes in call order. It is kept by the direct send of `Send_i` (which
bypasses an empty buffer), by the fall-through to buffering after a failed direct send and
by the flush loop, for any short writes, `EWOULDBLOCK` or errors of the socket, since each
of them is one use of `send_i_written_append_sendBuffer`.
-/

namespace VosStack

open Transition

/-- The bytes of one log entry if it is a `SendData` that succeeded while the proxy was not
stopped. -/
def LogEntry.acceptedBytes : LogEntry → Bytes
  | .sendData d rv stopped => if rv.succeeded && !stopped then d else []
  | _ => []

namespace World

/-- The accepted bytes of a log, in call order. -/
def acceptedBytes (log : List LogEntry) : Bytes := log.flatMap LogEntry.acceptedBytes

/-- The bytes of the `CFSEventSendData` events posted and not yet fired. -/
def queuedBytes (q : List NetEvent) : Bytes :=
  q.flatMap fun e => match e with
    | .sendData d => d
    | .disconnect => []

@[simp] theorem acceptedBytes_append (l l' : List LogEntry) :
    acceptedBytes (l ++ l') = acceptedBytes l ++ acceptedBytes l' :=
  List.flatMap_append

@[simp] theorem acceptedBytes_singleton (e : LogEntry) :
    acceptedBytes [e] = e.acceptedBytes := by
  simp [acceptedBytes]

@[simp] theorem queuedBytes_append (q q' : List NetEvent) :
    queuedBytes (q ++ q') = queuedBytes q ++ queuedBytes q' :=
  List.flatMap_append

@[simp] theorem queuedBytes_sendData_cons (d : Bytes) (q : List NetEvent) :
    queuedBytes (.sendData d :: q) = d ++ queuedBytes q := rfl

@[simp] theorem queuedBytes_disconnect_cons (q : List NetEvent) :
    queuedBytes (.disconnect :: q) = queuedBytes q := rfl

@[simp] theorem queuedBytes_nil : queuedBytes [] = [] := rfl

/-- The accepted bytes are the wire, then the send buffer, then the queue. The type of the
proxy is part of the invariant because a UDP proxy drops what it could not send. -/
structure Conserved (w : World) : Prop where
  tcp : w.proxy.type = .tcp
  bytes : acceptedBytes w.log =
    w.wire ++ w.proxy.sendBuffer.flatten ++ queuedBytes w.netQueue

variable {w w' : World} {a : Action}

theorem conserved_init (fd : ℕ) : Conserved (init fd) := ⟨rfl, rfl⟩

/-- Every transition keeps `Conserved`. -/
theorem Conserved.trans (hw : Conserved w) (h : Trans w a w') : Conserved w' := by
  obtain ⟨htcp, hc⟩ := hw
  cases h with
  | sendAccept d hu hq =>
    refine ⟨htcp, ?_⟩
    simp [hc, LogEntry.acceptedBytes]
  | netSend script d es hn hq =>
    refine ⟨htcp, ?_⟩
    have hsend := w.proxy.send_i_written_append_sendBuffer w.tcp script htcp (some d)
    rw [hq, queuedBytes_sendData_cons] at hc
    simp only [hc, List.append_assoc]
    rw [← List.append_assoc (CFSTransportThreadProxy.send_i _ _ _ _).written, hsend]
    simp
  | outputSend script hn hb ha hk hs =>
    refine ⟨htcp, ?_⟩
    have hsend := w.proxy.send_i_written_append_sendBuffer w.tcp.disarm script htcp none
    simp only [Option.getD_none, List.append_nil] at hsend
    simp only [hc, ← hsend, List.append_assoc]
  | netDisconnect script es hn hq =>
    rw [hq] at hc
    exact ⟨htcp, by simpa using hc⟩
  | flag₁ exit upcall hn => exact ⟨by simpa using htcp, by simpa using hc⟩
  | flag₂ exit upcall hn => exact ⟨by simpa using htcp, by simpa using hc⟩
  | _ => exact ⟨htcp, by simpa [LogEntry.acceptedBytes] using hc⟩

/-- **Conservation.** In every reachable state of a TCP transport proxy, for every
interleaving of the two threads and every sequence of socket outcomes, the concatenation
in call order of the byte strings whose `SendData` succeeded while the proxy was not
stopped is what was written to the socket, followed by the unsent bytes of
`m_SendBuffer`, followed by the bytes of the send events still queued. -/
theorem accepted_eq_wire_append_buffer_append_queue (fd : ℕ)
    (h : Reachable step (init fd) w) :
    acceptedBytes w.log =
      w.wire ++ w.proxy.sendBuffer.flatten ++ queuedBytes w.netQueue := by
  refine (Reach.induct h (conserved_init fd) fun s s' a hs _ hstep => ?_).bytes
  exact hs.trans (trans_of_step hstep)

/-- A run with a short write, a half-sent item in the buffer and an event in the queue. -/
theorem accepted_eq_wire_append_buffer_append_queue_short_write :
    ∃ w, Reachable step (init 3) w ∧ w.wire = [1] ∧ w.proxy.sendBuffer = [[2, 3]] ∧
      queuedBytes w.netQueue = [4] ∧
      acceptedBytes w.log =
        w.wire ++ w.proxy.sendBuffer.flatten ++ queuedBytes w.netQueue := by
  have hrun : Reachable step (init 3) _ := reachable_of_exec
    [.fireUser false, .openWithSink, .sendData [1, 2, 3], .userNext, .userNext,
      .fireNet [.wrote 0, .wouldBlock], .netNext, .netNext,
      .sendData [4], .userNext, .userNext, .userNext] rfl
  exact ⟨_, hrun, rfl, rfl, rfl, accepted_eq_wire_append_buffer_append_queue 3 hrun⟩

end World

end VosStack
