import VosStack.Basic

/-!
# The TCP transport: `CFSTransportTcp`

The network thread's side of a connection. Of the source's object the model keeps what its
send, receive and close paths read and write: the socket's descriptor, the sink, the
`m_bNeedOnSend` flag and whether the re-receive timer is scheduled. Whether the descriptor
is bound to this transport in the reactor's repository belongs to the reactor and is kept
by the caller.

The socket is the environment. What the successive `SendV` calls of one `SendData` return
is a script (`List SendOutcome`): `wrote n` takes `n + 1` of the bytes offered, or all of
them if there are fewer, so that a script can describe any short write of at least one
byte and nothing else. `FillIov` offers a non-empty prefix of a non-empty chain, which is
why a write always takes a non-empty prefix. A script that has run out is a socket whose
buffer is full.
-/

namespace VosStack

/-- What one `SendV` call on the socket returns. -/
inductive SendOutcome
  /-- the kernel took `n + 1` bytes, or everything offered if that is less -/
  | wrote (n : ℕ)
  /-- `EWOULDBLOCK` or `EAGAIN` -/
  | wouldBlock
  /-- any other error -/
  | error
  deriving DecidableEq, Repr

/-- What one `Recv` call on the socket returns. -/
inductive RecvOutcome
  /-- at least one byte -/
  | data (b : UInt8) (bs : Bytes)
  /-- `EWOULDBLOCK`; `available` is whether `FIONREAD` then reports bytes -/
  | wouldBlock (available : Bool)
  /-- end of file, or any other error -/
  | closed
  deriving DecidableEq, Repr

/-- The state of a `CFSTransportTcp`. -/
structure CFSTransportTcp where
  /-- `m_SocketTcp.GetHandle()`, `none` for `-1` -/
  handle : Option ℕ
  /-- `m_pSink` is not `NULL` -/
  sink : Bool
  /-- `m_bNeedOnSend` -/
  needOnSend : Bool
  /-- `m_TimerRereceive` is scheduled -/
  rereceive : Bool
  deriving DecidableEq, Repr

/-- The outcome of a `SendData` call: the result code, what is left of the chain, the bytes
that went to the socket and the rest of the script. -/
structure SendResult where
  rv : CAWResult
  rest : Bytes
  written : Bytes
  script : List SendOutcome
  deriving DecidableEq, Repr

namespace CFSTransportTcp

/-- The `while` loop of `SendData` on an open socket. -/
def sendLoop : List SendOutcome → Bytes → SendResult
  | script, [] => ⟨.ok, [], [], script⟩
  | [], d => ⟨.partialData, d, [], []⟩
  | .wouldBlock :: script, d => ⟨.partialData, d, [], script⟩
  | .error :: script, d => ⟨.networkSocketError, d, [], script⟩
  | .wrote n :: script, d =>
      let r := sendLoop script (d.drop (n + 1))
      { r with written := d.take (n + 1) ++ r.written }

/-- `CFSTransportTcp::SendData`. -/
def sendData (t : CFSTransportTcp) (script : List SendOutcome) (aData : Bytes) :
    CFSTransportTcp × SendResult :=
  match t.handle with
  | none => (t, ⟨.notInitialized, aData, [], script⟩)
  | some _ =>
      let r := sendLoop script aData
      -- only the `EWOULDBLOCK` exit arms the flag, and nothing here disarms it
      ({ t with needOnSend := t.needOnSend || r.rv == .partialData }, r)

/-- `OnOutput` clears `m_bNeedOnSend` before it calls its sink. -/
def disarm (t : CFSTransportTcp) : CFSTransportTcp := { t with needOnSend := false }

/-- `CFSTransportBase::Disconnect` with `CFSTransportTcp::Disconnect_t`. The socket stays
open; that the handler is removed from the reactor is the caller's `bound` flag. -/
def disconnect (t : CFSTransportTcp) : CFSTransportTcp :=
  { t with rereceive := false, sink := false }

/-- `CFSTransportTcp::Close_t`. -/
def close_t (t : CFSTransportTcp) : CFSTransportTcp :=
  { t with rereceive := false, handle := none }

/-! ### What a send does -/

/-- Nothing is lost or reordered by the send loop: what was written followed by what is
left is the chain it was given. -/
theorem sendLoop_written_append_rest (script : List SendOutcome) (d : Bytes) :
    (sendLoop script d).written ++ (sendLoop script d).rest = d := by
  induction script generalizing d with
  | nil => cases d <;> rfl
  | cons o script ih =>
    cases d with
    | nil => rfl
    | cons b d =>
      cases o with
      | wouldBlock => rfl
      | error => rfl
      | wrote n =>
        simp only [sendLoop, List.append_assoc, ih]
        exact List.take_append_drop (n + 1) (b :: d)

/-- The send loop succeeds exactly when it has consumed the whole chain. -/
theorem sendLoop_rv_eq_ok_iff (script : List SendOutcome) (d : Bytes) :
    (sendLoop script d).rv = .ok ↔ (sendLoop script d).rest = [] := by
  induction script generalizing d with
  | nil => cases d <;> simp [sendLoop]
  | cons o script ih =>
    cases d with
    | nil => simp [sendLoop]
    | cons b d => cases o <;> simp [sendLoop, ih]

/-- The send loop ends in success, in `partialData` or, only where the script has an
`error`, in `networkSocketError`. -/
theorem sendLoop_rv_of_error_not_mem {script : List SendOutcome} (h : .error ∉ script)
    (d : Bytes) : (sendLoop script d).rv = .ok ∨ (sendLoop script d).rv = .partialData := by
  induction script generalizing d with
  | nil => cases d <;> simp [sendLoop]
  | cons o script ih =>
    have htail : SendOutcome.error ∉ script := fun hm => h (List.mem_cons_of_mem _ hm)
    cases d with
    | nil => simp [sendLoop]
    | cons b d =>
      cases o with
      | wouldBlock => simp [sendLoop]
      | error => simp at h
      | wrote n => simpa [sendLoop] using ih htail _

/-- What is left of a script was in it. -/
theorem sendLoop_script_subset (script : List SendOutcome) (d : Bytes) :
    (sendLoop script d).script ⊆ script := by
  induction script generalizing d with
  | nil => cases d <;> simp [sendLoop]
  | cons o script ih =>
    cases d with
    | nil => simp [sendLoop]
    | cons b d =>
      cases o with
      | wouldBlock => simp [sendLoop]
      | error => simp [sendLoop]
      | wrote n => simpa [sendLoop] using List.subset_cons_of_subset _ (ih _)

variable (t : CFSTransportTcp) (script : List SendOutcome) (d : Bytes)

/-- Without a descriptor `SendData` fails and consumes nothing. -/
theorem sendData_of_closed (h : t.handle = none) :
    t.sendData script d = (t, ⟨.notInitialized, d, [], script⟩) := by
  simp [sendData, h]

/-- With a descriptor `SendData` is its loop. -/
theorem sendData_of_open {fd : ℕ} (h : t.handle = some fd) :
    t.sendData script d =
      ({ t with needOnSend := t.needOnSend || (sendLoop script d).rv == .partialData },
        sendLoop script d) := by
  simp [sendData, h]

theorem sendData_written_append_rest :
    (t.sendData script d).2.written ++ (t.sendData script d).2.rest = d := by
  cases h : t.handle with
  | none => simp [sendData_of_closed t script d h]
  | some fd => simp [sendData_of_open t script d h, sendLoop_written_append_rest]

/-- A successful `SendData` has consumed the whole chain. -/
theorem sendData_rest_of_ok (hok : (t.sendData script d).2.rv = .ok) :
    (t.sendData script d).2.rest = [] := by
  cases h : t.handle with
  | none => simp [sendData_of_closed t script d h] at hok
  | some fd =>
    rw [sendData_of_open t script d h] at hok ⊢
    exact (sendLoop_rv_eq_ok_iff script d).mp hok

/-- `SendData` changes the transport only in its `m_bNeedOnSend` flag. -/
theorem sendData_fst :
    (t.sendData script d).1 =
      { t with needOnSend := (t.sendData script d).1.needOnSend } := by
  rcases h : t.handle with _ | fd
  · simp [sendData_of_closed t script d h, ← h]
  · simp [sendData_of_open t script d h, ← h]

@[simp] theorem sendData_handle : (t.sendData script d).1.handle = t.handle := by
  rw [sendData_fst]

@[simp] theorem sendData_sink : (t.sendData script d).1.sink = t.sink := by
  rw [sendData_fst]

@[simp] theorem sendData_rereceive : (t.sendData script d).1.rereceive = t.rereceive := by
  rw [sendData_fst]

/-- `SendData` never disarms `m_bNeedOnSend`. -/
theorem sendData_needOnSend_of_armed (ha : t.needOnSend = true) :
    (t.sendData script d).1.needOnSend = true := by
  cases h : t.handle with
  | none => simpa [sendData_of_closed t script d h] using ha
  | some fd => simp [sendData_of_open t script d h, ha]

/-- A `SendData` that would block arms `m_bNeedOnSend`. -/
theorem sendData_needOnSend_of_partialData
    (hp : (t.sendData script d).2.rv = .partialData) :
    (t.sendData script d).1.needOnSend = true := by
  cases h : t.handle with
  | none => simp [sendData_of_closed t script d h] at hp
  | some fd =>
    rw [sendData_of_open t script d h] at hp ⊢
    simpa using Or.inr hp

/-- On an open socket without hard errors a send succeeds or would block. -/
theorem sendData_rv_of_error_not_mem (ho : t.handle ≠ none) (he : .error ∉ script) :
    (t.sendData script d).2.rv = .ok ∨ (t.sendData script d).2.rv = .partialData := by
  cases h : t.handle with
  | none => exact absurd h ho
  | some fd =>
    rw [sendData_of_open t script d h]
    exact sendLoop_rv_of_error_not_mem he d

theorem sendData_script_subset : (t.sendData script d).2.script ⊆ script := by
  cases h : t.handle with
  | none => simp [sendData_of_closed t script d h]
  | some fd =>
    rw [sendData_of_open t script d h]
    exact sendLoop_script_subset script d

end CFSTransportTcp

end VosStack
