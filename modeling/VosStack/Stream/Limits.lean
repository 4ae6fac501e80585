import Mathlib.Order.Lattice.Nat
import VosStack.Stream.Base

/-!
# The buffer limits of a stream

`SetSendBufferSize` and `SetRcvBufferSize` configure two limits. Only one of them is ever looked at:

* `OnReceive` refuses a chunk when more than `m_dwRcvBufMaxLen` bytes are waiting, so the receive
  buffer exceeds its limit by at most one chunk (`length_onReceive_le`), until the limit is lowered
  below what is already there.
* **No function reads `m_dwSendBufMaxLen`.** `SendMessage` appends whatever it is given and reports
  `CAW_OK`; the send buffer grows for as long as the peer does not read.

`Heeded` says exactly which runs respect both limits: those in which `SendMessage` is never called
on a stream over its limit, and a limit is never lowered too far.
-/

namespace VosStack.Stream

open Transition

variable {α : Type*}

/-- One call of `SendMessage`, as its caller sees it. -/
structure Sent (α : Type*) where
  /-- `m_dwSendBufMaxLen` -/
  limit : ℕ
  /-- `m_pMbSendBuf` before the call -/
  before : List α
  /-- `m_pMbSendBuf` after the call -/
  after : List α
  rv : CAWResult
  deriving DecidableEq, Repr

/-- Once the limit is passed, the call reports an error and keeps nothing. -/
def Sent.Refused (c : Sent α) : Prop :=
  c.limit < c.before.length → c.rv.failed = true ∧ c.after = c.before

instance [DecidableEq α] (c : Sent α) : Decidable c.Refused :=
  inferInstanceAs (Decidable (_ → _))

/-- A stream with its send limit and its history. -/
structure Limits (α : Type*) where
  stream : CFSStreamBase α
  /-- `m_dwSendBufMaxLen` -/
  sendBufMaxLen : ℕ
  /-- the length of the last message that `SendMessage` appended -/
  lastMessage : ℕ
  /-- the length of the longest chunk that `OnReceive` was called with -/
  longestChunk : ℕ
  sent : List (Sent α)
  deriving DecidableEq, Repr

/-- The calls on a stream. What `HandleMessage` answers may differ from one `OnReceive` to the
next; within one, each of its calls is shown fewer bytes, so that a function of the bytes covers
every behaviour. -/
inductive LimitsCall (α : Type*)
  | setTransportHandle (trpt : ℕ) (opened : Bool)
  | onDisconnect
  | sendMessage (aData : List α) (taken : ℕ)
  /-- `SendMessage(*m_pMbSendBuf)` -/
  | sendMessageBuf (taken : ℕ)
  | onSend (taken : ℕ)
  | onReceive (handleMessage : List α → ℕ) (aData : List α)
  | setSendBufferSize (bufferSize : ℕ)
  | setRcvBufferSize (bufferSize : ℕ)

namespace Limits

/-- The constructor. -/
def init : Limits α := ⟨.init, 1024 * 32, 0, 0, []⟩

/-- What a call of `SendMessage` that leads to the stream `x` and returns `rv` adds to the
history. -/
def report (s : Limits α) (x : CFSStreamBase α) (rv : CAWResult) : Limits α :=
  { s with
    stream := x
    sent := s.sent ++ [⟨s.sendBufMaxLen, s.stream.sendBuf, x.sendBuf, rv⟩] }

/-- One call. The transport calls up only while it is attached. -/
def step (s : Limits α) : LimitsCall α → Option (Limits α)
  | .setTransportHandle trpt opened =>
      some { s with stream := s.stream.setTransportHandle trpt opened }
  | .onDisconnect => some { s with stream := s.stream.onDisconnect }
  | .sendMessage aData taken =>
      if s.stream.transport = none then some (s.report s.stream .notInitialized)
      else
        some { s.report (s.stream.sendMessage aData taken) .ok with lastMessage := aData.length }
  | .sendMessageBuf taken =>
      if s.stream.transport = none then some (s.report s.stream .notInitialized)
      else some (s.report (s.stream.sendMessageBuf taken) .ok)
  | .onSend taken =>
      if s.stream.transport = none then none
      else some { s with stream := s.stream.onSend taken }
  | .onReceive handleMessage aData =>
      if s.stream.transport = none then none
      else some { s with
        stream := (s.stream.onReceive handleMessage aData).1
        longestChunk := max s.longestChunk aData.length }
  | .setSendBufferSize bufferSize => some { s with sendBufMaxLen := bufferSize }
  | .setRcvBufferSize bufferSize =>
      some { s with stream := s.stream.setRcvBufferSize bufferSize }

/-- The limits are respected, so far. -/
structure Limited (s : Limits α) : Prop where
  sendBuf : s.stream.sendBuf.length ≤ s.sendBufMaxLen + s.lastMessage
  sent : ∀ c ∈ s.sent, c.Refused
  rcvBuf : s.stream.rcvBuf.length ≤ s.stream.rcvBufMaxLen + s.longestChunk

/-- The condition on a call: `SendMessage` is called on an attached stream only while the send
buffer is within its limit, and a limit is not lowered too far below what is waiting. -/
def Heeded (s : Limits α) : LimitsCall α → Prop
  | .sendMessage _ _ | .sendMessageBuf _ =>
      s.stream.transport ≠ none → s.stream.sendBuf.length ≤ s.sendBufMaxLen
  | .setSendBufferSize bufferSize => s.stream.sendBuf.length ≤ bufferSize + s.lastMessage
  | .setRcvBufferSize bufferSize =>
      s.stream.rcvBuf.length ≤ min bufferSize (1024 * 32) + s.longestChunk
  | .setTransportHandle _ _ | .onDisconnect | .onSend _ | .onReceive _ _ => True

variable {s s' : Limits α}

theorem limited_init : Limited (init : Limits α) where
  sendBuf := Nat.zero_le _
  sent := by simp [init]
  rcvBuf := Nat.zero_le _

/-! ### What the calls do to the buffers -/

theorem length_sendMessage_le (x : CFSStreamBase α) (aData : List α) (taken : ℕ) :
    (x.sendMessage aData taken).sendBuf.length ≤ x.sendBuf.length + aData.length := by
  rw [CFSStreamBase.sendMessage, List.length_drop, List.length_append]
  exact Nat.sub_le _ _

theorem length_sendMessageBuf_le (x : CFSStreamBase α) (taken : ℕ) :
    (x.sendMessageBuf taken).sendBuf.length ≤ x.sendBuf.length := by
  rw [CFSStreamBase.sendMessageBuf, List.length_drop, List.length_drop]
  omega

theorem length_onSend_le (x : CFSStreamBase α) (taken : ℕ) :
    (x.onSend taken).sendBuf.length ≤ x.sendBuf.length := by
  rw [CFSStreamBase.onSend, List.length_drop]
  exact Nat.sub_le _ _

/-- The test is made before the chunk is appended, so the buffer stays as it was or exceeds the
limit by the chunk at most. -/
theorem length_onReceive_le (h : List α → ℕ) (x : CFSStreamBase α) (aData : List α) :
    (x.onReceive h aData).1.rcvBuf.length ≤
      max x.rcvBuf.length (x.rcvBufMaxLen + aData.length) := by
  rw [CFSStreamBase.onReceive]
  split_ifs with hempty hover
  · exact le_max_left _ _
  · exact le_max_left _ _
  · refine le_max_of_le_right ?_
    rw [List.length_drop, List.length_append]
    omega

theorem rcvBufMaxLen_setRcvBufferSize (x : CFSStreamBase α) (bufferSize : ℕ) :
    (x.setRcvBufferSize bufferSize).rcvBufMaxLen = min bufferSize (1024 * 32) := by
  change (if bufferSize > 1024 * 32 then 1024 * 32 else bufferSize) = min bufferSize (1024 * 32)
  split_ifs <;> omega

/-! ### Runs -/

/-- A call of `SendMessage` keeps the limits exactly when it is refused where it has to be and what
it leaves is within the limit. -/
theorem limited_report_iff {x : CFSStreamBase α} {rv : CAWResult} {n : ℕ} (h : s.Limited)
    (hrcv : x.rcvBuf = s.stream.rcvBuf ∧ x.rcvBufMaxLen = s.stream.rcvBufMaxLen) :
    Limited { s.report x rv with lastMessage := n } ↔
      x.sendBuf.length ≤ s.sendBufMaxLen + n ∧
        Sent.Refused ⟨s.sendBufMaxLen, s.stream.sendBuf, x.sendBuf, rv⟩ := by
  rw [← forall_mem_snoc_iff h.sent]
  constructor
  · exact fun h' => ⟨h'.sendBuf, h'.sent⟩
  · rintro ⟨hsend, hsent⟩
    refine ⟨hsend, hsent, ?_⟩
    change x.rcvBuf.length ≤ x.rcvBufMaxLen + s.longestChunk
    rw [hrcv.1, hrcv.2]
    exact h.rcvBuf

/-- `CAW_OK` is the right answer only within the limit. -/
theorem refused_ok_iff {limit : ℕ} {before after : List α} :
    Sent.Refused ⟨limit, before, after, .ok⟩ ↔ before.length ≤ limit := by
  refine ⟨fun h => Nat.le_of_not_lt fun hlt => ?_, fun h hlt => absurd h (Nat.not_le_of_lt hlt)⟩
  exact Bool.false_ne_true (h hlt).1

/-- A message accepted with `CAW_OK` keeps the limits exactly when the limit was not passed. -/
theorem limited_report_ok_iff (h : s.Limited) (x : CFSStreamBase α) (n : ℕ)
    (hrcv : x.rcvBuf = s.stream.rcvBuf ∧ x.rcvBufMaxLen = s.stream.rcvBufMaxLen)
    (hlen : s.stream.sendBuf.length ≤ s.sendBufMaxLen → x.sendBuf.length ≤ s.sendBufMaxLen + n) :
    Limited { s.report x .ok with lastMessage := n } ↔
      s.stream.sendBuf.length ≤ s.sendBufMaxLen := by
  rw [limited_report_iff h hrcv, refused_ok_iff]
  exact ⟨And.right, fun hle => ⟨hlen hle, hle⟩⟩

/-- Without a transport, `SendMessage` refuses everything. -/
theorem Limited.refuse (h : s.Limited) : (s.report s.stream .notInitialized).Limited :=
  (limited_report_iff h ⟨rfl, rfl⟩).mpr ⟨h.sendBuf, fun _ => ⟨rfl, rfl⟩⟩

/-- A call respects the limits exactly when it meets the condition. -/
theorem heeded_iff (h : s.Limited) (a : LimitsCall α) :
    s.Heeded a ↔ ∀ s' ∈ s.step a, s'.Limited := by
  cases a with
  | setTransportHandle trpt opened =>
    refine iff_of_true trivial ?_
    rintro _ ⟨⟩
    exact ⟨h.sendBuf, h.sent, h.rcvBuf⟩
  | onDisconnect =>
    refine iff_of_true trivial ?_
    rintro _ ⟨⟩
    exact ⟨h.sendBuf, h.sent, h.rcvBuf⟩
  | sendMessage aData taken =>
    rw [step, Heeded]
    split_ifs with ht
    · refine iff_of_true (fun hne => absurd ht hne) ?_
      rintro _ ⟨⟩
      exact h.refuse
    · rw [forall_mem_some_iff, imp_iff_right ht]
      refine (limited_report_ok_iff h (s.stream.sendMessage aData taken) _ ⟨rfl, rfl⟩
        fun hle => ?_).symm
      have hlen := length_sendMessage_le s.stream aData taken
      omega
  | sendMessageBuf taken =>
    rw [step, Heeded]
    split_ifs with ht
    · refine iff_of_true (fun hne => absurd ht hne) ?_
      rintro _ ⟨⟩
      exact h.refuse
    · rw [forall_mem_some_iff, imp_iff_right ht]
      have hlen := length_sendMessageBuf_le s.stream taken
      exact (limited_report_ok_iff h (s.stream.sendMessageBuf taken) _ ⟨rfl, rfl⟩
        fun _ => hlen.trans h.sendBuf).symm
  | onSend taken =>
    refine iff_of_true trivial ?_
    intro s' hs'
    obtain ⟨_, ⟨rfl⟩⟩ := Option.ite_none_left_eq_some.mp hs'
    exact ⟨(length_onSend_le s.stream taken).trans h.sendBuf, h.sent, h.rcvBuf⟩
  | onReceive handleMessage aData =>
    refine iff_of_true trivial ?_
    intro s' hs'
    obtain ⟨_, ⟨rfl⟩⟩ := Option.ite_none_left_eq_some.mp hs'
    obtain ⟨rcvBuf, rcvOverBuffer, hframe⟩ := s.stream.onReceive_frame handleMessage aData
    have hrcv := h.rcvBuf
    have hlen := length_onReceive_le handleMessage s.stream aData
    rw [hframe] at hlen ⊢
    dsimp only at hlen
    refine ⟨h.sendBuf, h.sent, ?_⟩
    change rcvBuf.length ≤ s.stream.rcvBufMaxLen + max s.longestChunk aData.length
    omega
  | setSendBufferSize bufferSize =>
    constructor
    · rintro hle _ ⟨⟩
      exact ⟨hle, h.sent, h.rcvBuf⟩
    · exact fun hall => (hall _ rfl).sendBuf
  | setRcvBufferSize bufferSize =>
    rw [Heeded, ← rcvBufMaxLen_setRcvBufferSize s.stream]
    constructor
    · rintro hle _ ⟨⟩
      exact ⟨h.sendBuf, h.sent, hle⟩
    · exact fun hall => (hall _ rfl).rcvBuf

/-- **Limits along a run.** Both buffers respect their limits in every state exactly when each call
meets the condition. -/
theorem always_limited_iff (as : List (LimitsCall α)) :
    Always step Limited (init : Limits α) as ↔ Admitted step Heeded init as :=
  always_iff_admitted (fun _ h => h) (fun _ a h => heeded_iff h a)
    (fun _ _ _ _ _ h => h) as limited_init

/-- A send limit of no bytes and a transport that takes nothing: three messages of a byte are
accepted and kept. -/
theorem three_messages_kept :
    ∃ s, exec step (init : Limits UInt8)
        [.setTransportHandle 0 true, .setSendBufferSize 0, .sendMessage [1] 0,
          .sendMessage [2] 0, .sendMessage [3] 0] = some s ∧
      s.stream.sendBuf = [1, 2, 3] ∧ s.sendBufMaxLen = 0 ∧ s.lastMessage = 1 ∧
      s.sent.map Sent.rv = [.ok, .ok, .ok] ∧ ¬ s.Limited :=
  ⟨_, rfl, rfl, rfl, rfl, rfl, fun h => absurd h.sendBuf (by decide)⟩

end Limits

end VosStack.Stream
