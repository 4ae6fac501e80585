import VosStack.Transport.Inversion

/-!
# The send buffer and its flags

The network thread keeps `m_SendBuffer` with two flags that the user thread reads:
`m_bIsBufferFull`, which is to say that the buffer is not empty, and `m_bPartialDataLastTime`, which
is to say that the front item could only be sent in part. `Send_i` does not write them on every way
out: after a direct send it returns early, and the flags are right there only because they were
right before.

Here the transport is any (`IFSTransport`): it sends what it likes, as long as it reports success
exactly when it has consumed the chain. Each call may find it in any state. An item remembers how
the last attempt to send it ended.

The connection of `Transport.Proxy`, where the two flag writes are steps of their own, is such a
sender once the writes that are under way are done (`World.exists_sender`), with `CFSTransportTcp`
as its transport.
-/

namespace VosStack

open Transition

/-- A transport as the proxy uses it: `sendData` gives the result and what is left of the chain. -/
structure IFSTransport (τ : Type*) where
  sendData : τ → Bytes → τ × CAWResult × Bytes
  ok_iff : ∀ t d, d ≠ [] → ((sendData t d).2.1 = .ok ↔ (sendData t d).2.2 = [])

/-- `CFSTransportTcp`, with what its socket is going to answer. -/
def CFSTransportTcp.transport : IFSTransport (CFSTransportTcp × List SendOutcome) where
  sendData t d :=
    (((t.1.sendData t.2 d).1, (t.1.sendData t.2 d).2.script), (t.1.sendData t.2 d).2.rv,
      (t.1.sendData t.2 d).2.rest)
  ok_iff t d hd := by
    cases hopen : t.1.handle with
    | none =>
      rw [CFSTransportTcp.sendData_of_closed t.1 t.2 d hopen]
      exact iff_of_false nofun hd
    | some fd =>
      rw [CFSTransportTcp.sendData_of_open t.1 t.2 d hopen]
      exact CFSTransportTcp.sendLoop_rv_eq_ok_iff t.2 d

/-- `CItem`: the unsent bytes, and the result of the last attempt to send them. -/
structure CItem where
  mbSend : Bytes
  last : Option CAWResult
  deriving DecidableEq, Repr

/-- The part of a `CFSTransportThreadProxy` that sends. -/
structure Sender where
  type : CType
  isBufferFull : Bool
  partialDataLastTime : Bool
  sendBuffer : List CItem
  deriving DecidableEq, Repr

namespace Sender

/-- A new TCP proxy. -/
def init : Sender := ⟨.tcp, false, false, []⟩

variable {τ : Type*} (T : IFSTransport τ)

/-- The `while` loop of `Send_i`. -/
def flush : τ → List CItem → List CItem × SendExit
  | _, [] => ([], .flushed)
  | t, itTop :: items =>
    let r := T.sendData t itTop.mbSend
    if r.2.1.failed then (⟨r.2.2, some r.2.1⟩ :: items, .fail r.2.1) else flush r.1 items

/-- The flag writes of `Send_i`. -/
def leave (p : Sender) (out : List CItem × SendExit) : Sender :=
  match out.2 with
  | .direct => { p with sendBuffer := out.1 }
  | .flushed =>
    { p with sendBuffer := out.1, isBufferFull := false, partialDataLastTime := false }
  | .fail rvSend =>
    { p with
      sendBuffer := out.1, isBufferFull := true, partialDataLastTime := rvSend == .partialData }

/-- `Send_i` up to its flag writes. -/
def trySend (p : Sender) (t : τ) : Option Bytes → List CItem × SendExit
  | none => flush T t p.sendBuffer
  | some aData =>
    if p.sendBuffer.isEmpty then
      let r := T.sendData t aData
      if r.2.1.succeeded || p.type == .udp then (p.sendBuffer, .direct)
      else (p.sendBuffer ++ [⟨r.2.2, some r.2.1⟩], .fail r.2.1)
    else flush T t (p.sendBuffer ++ [⟨aData, none⟩])

/-- `Send_i`, with the actual transport if there is one. -/
def send_i (p : Sender) (actual : Option τ) (aData : Option Bytes) : Sender :=
  match actual with
  | none => p
  | some t => p.leave (p.trySend T t aData)

/-- `OnSend`, with what it sees of the stop flag. -/
def onSend (p : Sender) (actual : Option τ) (stopped : Bool) : Sender :=
  if stopped then p
  else if p.type = .udp then p
  else p.send_i T actual none

/-- The steps of the network thread. The transport may be in any state. -/
inductive Action (τ : Type*)
  /-- `CFSEventSendData::OnEventFire` -/
  | fire (actual : Option τ) (aData : Bytes)
  | onSend (actual : Option τ) (stopped : Bool)

/-- The message that a step brings. -/
def Action.message {τ : Type*} : Action τ → Option Bytes
  | .fire _ aData => some aData
  | .onSend _ _ => none

def step (p : Sender) : Action τ → Option Sender
  | .fire actual aData => some (p.send_i T actual (some aData))
  | .onSend actual stopped => some (p.onSend T actual stopped)

/-! ### The flags -/

/-- What the flags say. -/
structure FlagsOk (p : Sender) : Prop where
  full_iff : p.isBufferFull = true ↔ p.sendBuffer ≠ []
  partial_front : p.partialDataLastTime = true →
    p.isBufferFull = true ∧ ∃ it items, p.sendBuffer = it :: items ∧ it.last = some .partialData

/-- Every item has something to send. -/
def Unsent (items : List CItem) : Prop := ∀ it ∈ items, it.mbSend ≠ []

/-- What `Send_i` has done when it leaves: nothing to the buffer on the early way out, all on the
regular one; on failure the front item is the one that failed. -/
def Left (p : Sender) (out : List CItem × SendExit) : Prop :=
  match out.2 with
  | .direct => out.1 = p.sendBuffer
  | .flushed => out.1 = []
  | .fail rvSend => ∃ it items, out.1 = it :: items ∧ it.last = some rvSend

variable {T} {p : Sender}

theorem flush_cons_failed {t : τ} {it : CItem} (h : (T.sendData t it.mbSend).2.1 ≠ .ok)
    (items : List CItem) :
    flush T t (it :: items) =
      (⟨(T.sendData t it.mbSend).2.2, some (T.sendData t it.mbSend).2.1⟩ :: items,
        .fail (T.sendData t it.mbSend).2.1) :=
  if_pos (CAWResult.failed_iff.mpr h)

theorem flush_cons_ok {t : τ} {it : CItem} (h : (T.sendData t it.mbSend).2.1 = .ok)
    (items : List CItem) :
    flush T t (it :: items) = flush T (T.sendData t it.mbSend).1 items :=
  if_neg fun hfailed => CAWResult.failed_iff.mp hfailed h

theorem flush_left (p : Sender) (t : τ) (items : List CItem) : p.Left (flush T t items) := by
  induction items generalizing t with
  | nil => exact rfl
  | cons it items ih =>
    by_cases hok : (T.sendData t it.mbSend).2.1 = .ok
    · rw [flush_cons_ok hok]
      exact ih _
    · rw [flush_cons_failed hok]
      exact ⟨_, items, rfl, rfl⟩

section trySend

variable {t : τ} {d : Bytes}

theorem trySend_of_direct (hempty : p.sendBuffer = [])
    (h : ((T.sendData t d).2.1.succeeded || p.type == .udp) = true) :
    p.trySend T t (some d) = ([], .direct) := by
  simp only [trySend, hempty, List.isEmpty_nil, if_true, if_pos h]

theorem trySend_of_failed (hempty : p.sendBuffer = [])
    (h : ¬ ((T.sendData t d).2.1.succeeded || p.type == .udp) = true) :
    p.trySend T t (some d) =
      ([⟨(T.sendData t d).2.2, some (T.sendData t d).2.1⟩], .fail (T.sendData t d).2.1) := by
  simp only [trySend, hempty, List.isEmpty_nil, if_true, if_neg h, List.nil_append]

theorem trySend_of_buffered (hne : p.sendBuffer ≠ []) :
    p.trySend T t (some d) = flush T t (p.sendBuffer ++ [⟨d, none⟩]) := by
  rw [trySend, if_neg (mt List.isEmpty_iff.mp hne)]

end trySend

theorem trySend_left (t : τ) (aData : Option Bytes) : p.Left (p.trySend T t aData) := by
  cases aData with
  | none => exact flush_left p t p.sendBuffer
  | some d =>
    by_cases hempty : p.sendBuffer = []
    · by_cases hdirect : ((T.sendData t d).2.1.succeeded || p.type == .udp) = true
      · rw [trySend_of_direct hempty hdirect]
        exact hempty.symm
      · rw [trySend_of_failed hempty hdirect]
        exact ⟨_, [], rfl, rfl⟩
    · rw [trySend_of_buffered hempty]
      exact flush_left p t _

/-- The flags are right on every way out; on the early one because they were. -/
theorem FlagsOk.leave (h : p.FlagsOk) {out : List CItem × SendExit} (hout : p.Left out) :
    (p.leave out).FlagsOk := by
  obtain ⟨items, exit⟩ := out
  cases exit with
  | direct =>
    -- no flag is written, and the buffer is the one they were right for
    obtain rfl : items = p.sendBuffer := hout
    exact h
  | flushed =>
    obtain rfl : items = [] := hout
    exact ⟨iff_of_false Bool.false_ne_true fun hne => hne rfl, fun hp => nomatch hp⟩
  | fail rvSend =>
    obtain ⟨it, rest, rfl, hlast⟩ : ∃ it rest, items = it :: rest ∧ it.last = some rvSend := hout
    refine ⟨iff_of_true rfl (List.cons_ne_nil it rest), fun hp => ⟨rfl, it, rest, rfl, ?_⟩⟩
    have hrv : rvSend = .partialData := beq_iff_eq.mp hp
    rw [hlast, hrv]

theorem FlagsOk.send_i (h : p.FlagsOk) (actual : Option τ) (aData : Option Bytes) :
    (p.send_i T actual aData).FlagsOk := by
  cases actual with
  | none => exact h
  | some t => exact h.leave (trySend_left t aData)

theorem FlagsOk.step {p' : Sender} {a : Action τ} (h : p.FlagsOk) (hs : p.step T a = some p') :
    p'.FlagsOk := by
  cases a with
  | fire actual aData =>
    cases hs
    exact h.send_i actual (some aData)
  | onSend actual stopped =>
    cases hs
    rw [onSend]
    split_ifs
    · exact h
    · exact h
    · exact h.send_i actual none

theorem flagsOk_init : init.FlagsOk :=
  ⟨iff_of_false Bool.false_ne_true fun hne => hne rfl, fun hp => nomatch hp⟩

theorem flagsOk_of_reachable (h : Reachable (step T) init p) : p.FlagsOk :=
  h.induct (I := FlagsOk) flagsOk_init fun _ _ _ hp _ hs => hp.step hs

theorem type_send_i (actual : Option τ) (aData : Option Bytes) :
    (p.send_i T actual aData).type = p.type := by
  cases actual with
  | none => rfl
  | some t =>
    rw [send_i, leave]
    split <;> rfl

theorem type_step {p' : Sender} {a : Action τ} (hs : p.step T a = some p') : p'.type = p.type := by
  cases a with
  | fire actual aData =>
    cases hs
    exact type_send_i actual (some aData)
  | onSend actual stopped =>
    cases hs
    rw [onSend]
    split_ifs
    · rfl
    · rfl
    · exact type_send_i actual none

theorem type_of_reachable (h : Reachable (step T) init p) : p.type = .tcp :=
  h.induct (I := fun p => p.type = .tcp) rfl fun _ _ _ hp _ hs => (type_step hs).trans hp

/-! ### The items -/

theorem unsent_flush (t : τ) (items : List CItem) (h : Unsent items) :
    Unsent (flush T t items).1 := by
  induction items generalizing t with
  | nil => exact h
  | cons it items ih =>
    obtain ⟨hit, hitems⟩ := List.forall_mem_cons.mp h
    by_cases hok : (T.sendData t it.mbSend).2.1 = .ok
    · rw [flush_cons_ok hok]
      exact ih _ hitems
    · rw [flush_cons_failed hok]
      exact List.forall_mem_cons.mpr ⟨mt (T.ok_iff t _ hit).mpr hok, hitems⟩

theorem unsent_trySend (t : τ) {aData : Option Bytes} (h : Unsent p.sendBuffer)
    (hd : aData ≠ some []) : Unsent (p.trySend T t aData).1 := by
  cases aData with
  | none => exact unsent_flush t _ h
  | some d =>
    have hne : d ≠ [] := fun hd' => hd (congrArg some hd')
    by_cases hempty : p.sendBuffer = []
    · by_cases hdirect : ((T.sendData t d).2.1.succeeded || p.type == .udp) = true
      · rw [trySend_of_direct hempty hdirect]
        exact List.forall_mem_nil _
      · rw [trySend_of_failed hempty hdirect]
        have hfailed : (T.sendData t d).2.1 ≠ .ok := fun hok =>
          hdirect (Bool.or_eq_true_iff.mpr (.inl (CAWResult.succeeded_iff.mpr hok)))
        exact List.forall_mem_singleton.mpr (mt (T.ok_iff t d hne).mpr hfailed)
    · rw [trySend_of_buffered hempty]
      exact unsent_flush t _ ((forall_mem_snoc_iff h).mpr hne)

theorem sendBuffer_leave (out : List CItem × SendExit) : (p.leave out).sendBuffer = out.1 := by
  rw [leave]
  split <;> rfl

theorem unsent_send_i (actual : Option τ) {aData : Option Bytes} (h : Unsent p.sendBuffer)
    (hd : aData ≠ some []) : Unsent (p.send_i T actual aData).sendBuffer := by
  cases actual with
  | none => exact h
  | some t =>
    rw [send_i, sendBuffer_leave]
    exact unsent_trySend t h hd

theorem unsent_step {p' : Sender} {a : Action τ} (h : Unsent p.sendBuffer)
    (ha : a.message ≠ some []) (hs : p.step T a = some p') : Unsent p'.sendBuffer := by
  cases a with
  | fire actual aData =>
    cases hs
    exact unsent_send_i actual h ha
  | onSend actual stopped =>
    cases hs
    rw [onSend]
    split_ifs
    · exact h
    · exact h
    · exact unsent_send_i actual h nofun

theorem unsent_of_exec {as : List (Action τ)} {p' : Sender} (h : Unsent p.sendBuffer)
    (has : ∀ a ∈ as, a.message ≠ some []) (hs : exec (step T) p as = some p') :
    Unsent p'.sendBuffer := by
  induction as generalizing p with
  | nil =>
    obtain rfl : p = p' := Option.some.inj hs
    exact h
  | cons a as ih =>
    obtain ⟨p₁, ha, hrest⟩ := Option.bind_eq_some_iff.mp hs
    obtain ⟨hmsg, hmsgs⟩ := List.forall_mem_cons.mp has
    exact ih (unsent_step h hmsg ha) hmsgs hrest

/-- **The send buffer.** After every sequence of steps of the network thread, with any transport in
any state at each of them: the buffer is full exactly when it is not empty, the partial flag is set
only if the last attempt with the front item was partial, and without empty messages every item has
something to send. -/
theorem sendFlags_of_exec (T : IFSTransport τ) (as : List (Action τ)) {p : Sender}
    (hs : exec (step T) init as = some p) :
    p.FlagsOk ∧ ((∀ a ∈ as, a.message ≠ some []) → Unsent p.sendBuffer) := by
  have hempty : Unsent init.sendBuffer := List.forall_mem_nil _
  exact ⟨flagsOk_of_reachable (reachable_of_exec as hs), fun has => unsent_of_exec hempty has hs⟩

/-- Two messages over a socket that takes one byte at a time. -/
def oneByte : List (Action (CFSTransportTcp × List SendOutcome)) :=
  let t : CFSTransportTcp := ⟨some 3, true, false, false⟩
  [.fire (some (t, [.wrote 0])) [1, 2], .fire (some (t, [])) [3],
    .onSend (some (t, [.wrote 0])) false]

/-- The second message is left, and its last attempt was partial. -/
theorem sendFlags_of_exec_oneByte :
    ∃ p, exec (step CFSTransportTcp.transport) init oneByte = some p ∧
      p.sendBuffer = [⟨[3], some .partialData⟩] ∧ p.partialDataLastTime = true ∧ p.FlagsOk ∧
      Unsent p.sendBuffer := by
  have hrun : exec (step CFSTransportTcp.transport) init oneByte = some _ := rfl
  obtain ⟨hflags, hunsent⟩ := sendFlags_of_exec CFSTransportTcp.transport oneByte hrun
  refine ⟨_, hrun, rfl, rfl, hflags, hunsent ?_⟩
  intro a ha
  simp only [oneByte, List.mem_cons, List.not_mem_nil, or_false] at ha
  obtain rfl | rfl | rfl := ha <;> exact nofun

end Sender

/-! ### The connection -/

namespace Sender

/-- The sender is that of a proxy. -/
structure Agrees (p : Sender) (q : CFSTransportThreadProxy) : Prop where
  type : q.type = p.type
  full : q.isBufferFull = p.isBufferFull
  partialData : q.partialDataLastTime = p.partialDataLastTime
  buffer : q.sendBuffer = p.sendBuffer.map CItem.mbSend

variable {p : Sender} {q : CFSTransportThreadProxy}

/-- Both loops send the same. -/
theorem flush_agrees (t : CFSTransportTcp) (script : List SendOutcome) (items : List CItem) :
    (VosStack.flush t script (items.map CItem.mbSend)).sendBuffer =
        (flush CFSTransportTcp.transport (t, script) items).1.map CItem.mbSend ∧
      (VosStack.flush t script (items.map CItem.mbSend)).exit =
        (flush CFSTransportTcp.transport (t, script) items).2 := by
  induction items generalizing t script with
  | nil => exact ⟨rfl, rfl⟩
  | cons it items ih =>
    rw [List.map_cons]
    by_cases hok : (t.sendData script it.mbSend).2.rv = .ok
    · rw [flush_cons_of_ok t script _ hok, flush_cons_ok (t := (t, script)) hok]
      exact ih _ _
    · rw [flush_cons_of_failed t script _ hok, flush_cons_failed (t := (t, script)) hok]
      exact ⟨rfl, rfl⟩

theorem Agrees.trySend (h : p.Agrees q) (t : CFSTransportTcp) (script : List SendOutcome)
    (aData : Option Bytes) :
    (q.send_i t script aData).sendBuffer =
        (p.trySend CFSTransportTcp.transport (t, script) aData).1.map CItem.mbSend ∧
      (q.send_i t script aData).exit =
        (p.trySend CFSTransportTcp.transport (t, script) aData).2 := by
  cases aData with
  | none =>
    rw [CFSTransportThreadProxy.send_i, h.buffer]
    exact flush_agrees t script p.sendBuffer
  | some d =>
    by_cases hempty : p.sendBuffer = []
    · have hq : q.sendBuffer = [] := by rw [h.buffer, hempty, List.map_nil]
      by_cases hdirect : ((t.sendData script d).2.rv.succeeded || p.type == .udp) = true
      · rw [trySend_of_direct (t := (t, script)) hempty hdirect]
        simp only [CFSTransportThreadProxy.send_i, hq, List.isEmpty_nil, if_true, h.type, hdirect,
          List.map_nil, and_self]
      · rw [trySend_of_failed (t := (t, script)) hempty hdirect]
        simp only [CFSTransportThreadProxy.send_i, hq, List.isEmpty_nil, if_true, h.type,
          if_neg hdirect]
        exact ⟨rfl, rfl⟩
    · have hq : ¬ q.sendBuffer.isEmpty = true := by
        rw [h.buffer, List.isEmpty_map, List.isEmpty_iff]
        exact hempty
      rw [trySend_of_buffered hempty, CFSTransportThreadProxy.send_i, if_neg hq, h.buffer]
      have hflush := flush_agrees t script (p.sendBuffer ++ [⟨d, none⟩])
      rw [List.map_append] at hflush
      exact hflush

/-- The two flag writes of the proxy are those of the sender. -/
theorem Agrees.leave (h : p.Agrees q) {s : SendState} {out : List CItem × SendExit}
    (hbuffer : s.sendBuffer = out.1.map CItem.mbSend) (hexit : s.exit = out.2) :
    (p.leave out).Agrees
      (({ q with sendBuffer := s.sendBuffer }.writeFlag₁ s.exit).writeFlag₂ s.exit) := by
  obtain ⟨items, exit⟩ := out
  rw [hexit, hbuffer]
  cases exit with
  | direct => exact ⟨h.type, h.full, h.partialData, rfl⟩
  | flushed => exact ⟨h.type, rfl, rfl, rfl⟩
  | fail rvSend => exact ⟨h.type, rfl, rfl, rfl⟩

end Sender

/-- `Send_i` is at its flag writes. -/
def NetPos.writing : NetPos → Bool
  | .sendFlag₁ _ _ | .sendFlag₂ _ _ => true
  | _ => false

namespace World

/-- The proxy once the flag writes that are under way are done. -/
def settled (w : World) : CFSTransportThreadProxy :=
  match w.net with
  | .sendFlag₁ exit _ => (w.proxy.writeFlag₁ exit).writeFlag₂ exit
  | .sendFlag₂ exit _ => w.proxy.writeFlag₂ exit
  | _ => w.proxy

variable {w w' : World} {a : Action} {p : Sender}

/-- What else changes does not matter to the sender. -/
theorem agrees_settled_of_eq (h : p.Agrees w.settled) (hnet : w'.net = w.net)
    (htype : w'.proxy.type = w.proxy.type)
    (hfull : w'.proxy.isBufferFull = w.proxy.isBufferFull)
    (hpart : w'.proxy.partialDataLastTime = w.proxy.partialDataLastTime)
    (hbuffer : w'.proxy.sendBuffer = w.proxy.sendBuffer) : p.Agrees w'.settled := by
  rw [settled] at h ⊢
  rw [hnet]
  split at h
  case h_1 exit _ _ =>
    cases exit with
    | direct => exact ⟨htype ▸ h.type, hfull ▸ h.full, hpart ▸ h.partialData, hbuffer ▸ h.buffer⟩
    | flushed => exact ⟨htype ▸ h.type, h.full, h.partialData, hbuffer ▸ h.buffer⟩
    | fail rv => exact ⟨htype ▸ h.type, h.full, h.partialData, hbuffer ▸ h.buffer⟩
  case h_2 exit _ _ =>
    cases exit with
    | direct => exact ⟨htype ▸ h.type, hfull ▸ h.full, hpart ▸ h.partialData, hbuffer ▸ h.buffer⟩
    | flushed => exact ⟨htype ▸ h.type, hfull ▸ h.full, h.partialData, hbuffer ▸ h.buffer⟩
    | fail rv => exact ⟨htype ▸ h.type, h.full, hpart ▸ h.partialData, hbuffer ▸ h.buffer⟩
  case h_3 =>
    exact ⟨htype ▸ h.type, hfull ▸ h.full, hpart ▸ h.partialData, hbuffer ▸ h.buffer⟩

theorem settled_of_not_writing (h : w.net.writing = false) : w.settled = w.proxy := by
  rw [settled]
  split
  case h_1 hn | h_2 hn =>
    rw [hn] at h
    cases h
  case h_3 => rfl

/-- Between calls the network thread may go anywhere. -/
theorem agrees_settled_of_proxy (h : p.Agrees w.settled) (hw : w.net.writing = false)
    (hw' : w'.net.writing = false) (hproxy : w'.proxy = w.proxy) : p.Agrees w'.settled := by
  rw [settled_of_not_writing hw] at h
  rw [settled_of_not_writing hw', hproxy]
  exact h

/-- A call of `Send_i` that starts is one of the sender. -/
theorem agrees_send_i (h : p.Agrees w.settled) (hw : w.net = .idle) (t : CFSTransportTcp)
    (script : List SendOutcome) (aData : Option Bytes) {upcall : Bool}
    (hproxy : w'.proxy = { w.proxy with sendBuffer := (w.proxy.send_i t script aData).sendBuffer })
    (hnet : w'.net = .sendFlag₁ (w.proxy.send_i t script aData).exit upcall) :
    (p.send_i CFSTransportTcp.transport (some (t, script)) aData).Agrees w'.settled := by
  rw [settled_of_not_writing (by rw [hw]; rfl)] at h
  obtain ⟨hbuffer, hexit⟩ := h.trySend t script aData
  rw [settled, hnet, hproxy]
  exact h.leave hbuffer hexit

/-- **One step** of the connection is one of the sender, or none. -/
theorem exists_sender_step (h : Trans w a w') (hp : p.Agrees w.settled) (htcp : p.type = .tcp) :
    p.Agrees w'.settled ∨
      ∃ b p', p.step CFSTransportTcp.transport b = some p' ∧ p'.Agrees w'.settled := by
  cases h with
  | netSend script d es hn hq =>
    refine .inr ⟨.fire (some (w.tcp, script)) d, _, rfl, ?_⟩
    exact agrees_send_i hp hn w.tcp script (some d) rfl rfl
  | outputSend script hn hb ha hk hs =>
    refine .inr ⟨.onSend (some (w.tcp.disarm, script)) false, _, rfl, ?_⟩
    rw [Sender.onSend, if_neg Bool.false_ne_true, htcp, if_neg nofun]
    exact agrees_send_i hp hn w.tcp.disarm script none rfl rfl
  | flag₁ exit upcall hn =>
    left
    rw [settled, hn] at hp
    exact hp
  | flag₂ exit upcall hn =>
    left
    rw [settled, hn] at hp
    rw [settled_of_not_writing (by dsimp only; split_ifs <;> rfl)]
    exact hp
  | input hn | recvDrop _ _ hn | recvPost _ _ hn | recvBlock _ hn | timerDrop _ _ hn
  | timerPost _ _ hn | postOnSend hn | postDisconnect hn =>
    exact .inl (agrees_settled_of_proxy hp (by rw [hn]; rfl) rfl rfl)
  | postReceive d loop hn =>
    exact .inl (agrees_settled_of_proxy hp (by rw [hn]; rfl) (by cases loop <;> rfl) rfl)
  | closeNoSink _ hn | closeStopped _ hn | closePost _ hn =>
    have hw : w.net.writing = false := by
      obtain hn | hn := hn.net <;> rw [hn] <;> rfl
    exact .inl (agrees_settled_of_proxy hp hw rfl rfl)
  | _ => exact .inl (agrees_settled_of_eq hp rfl rfl rfl rfl rfl)

/-- **The connection refines the sender.** -/
theorem exists_sender {fd : ℕ} (h : Reachable step (init fd) w) :
    ∃ p, Reachable (Sender.step CFSTransportTcp.transport) .init p ∧ p.Agrees w.settled := by
  refine h.induct
    (I := fun w => ∃ p, Reachable (Sender.step CFSTransportTcp.transport) .init p ∧
      p.Agrees w.settled)
    ⟨.init, .refl, rfl, rfl, rfl, rfl⟩ ?_
  rintro w w' a ⟨p, hreach, hp⟩ - hs
  obtain hp' | ⟨b, p', hb, hp'⟩ :=
    exists_sender_step (trans_of_step hs) hp (Sender.type_of_reachable hreach)
  · exact ⟨p, hreach, hp'⟩
  · exact ⟨p', hreach.tail trivial hb, hp'⟩

/-- So its flags are right whenever the network thread is not about to write them. -/
theorem flags_of_reachable {fd : ℕ} (h : Reachable step (init fd) w)
    (hw : w.net.writing = false) :
    (w.proxy.isBufferFull = true ↔ w.proxy.sendBuffer ≠ []) ∧
      (w.proxy.partialDataLastTime = true → w.proxy.isBufferFull = true) := by
  obtain ⟨p, hreach, hp⟩ := exists_sender h
  rw [settled_of_not_writing hw] at hp
  have hflags := Sender.flagsOk_of_reachable hreach
  rw [hp.full, hp.partialData, hp.buffer, ne_eq, List.map_eq_nil_iff]
  exact ⟨hflags.full_iff, fun hpart => (hflags.partial_front hpart).1⟩

end World

end VosStack
