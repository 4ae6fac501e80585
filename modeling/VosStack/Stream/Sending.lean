import Mathlib.Data.List.TakeDrop
import VosStack.MessageBlock
import VosStack.Stream.Base

/-!
# What is given to `SendMessage` and what the transport consumes

`SendMessage` puts its data behind what is still waiting in `m_pMbSendBuf`, offers all of it to the
transport and keeps what the transport did not take; the transport's result is not looked at. Here
`m_pMbSendBuf` is a **chain of blocks** and may be `NULL`, so that its being `NULL` can be told from
its being empty, and the history of one connection is kept beside it.

`SendMessage` also accepts `m_pMbSendBuf` itself: then nothing is appended, and the final
`aData.AdvanceChainedReadPtr(dwTotal)`, meant for the caller's own copy, runs over the waiting data.
No byte is lost or sent twice along a run **exactly when** the transport took everything in each
such call (`TakesAll`).

The chains are those of any `MessageBlock`. `represents_step` connects them to the byte strings of
`CFSStreamBase`.
-/

namespace VosStack.Stream

open Transition

variable {C α : Type*}

/-- What a transport does in one `SendData`: how much of the front it takes, and the result that
nobody looks at. -/
structure Reply where
  taken : ℕ
  rv : CAWResult
  deriving DecidableEq, Repr

/-- The sending side of a `CFSStreamBase` on one connection, with its history. -/
structure Sender (C α : Type*) where
  /-- `m_pMbSendBuf` -/
  sendBuf : Option C
  /-- all data given to `SendMessage` -/
  given : List α
  /-- the bytes the transport has taken -/
  consumed : List α
  deriving DecidableEq, Repr

/-- The calls on the sending side. -/
inductive SendCall (C : Type*)
  | sendMessage (aData : C) (r : Reply)
  /-- `SendMessage(*m_pMbSendBuf)` -/
  | sendMessageBuf (r : Reply)
  | onSend (r : Reply)
  deriving DecidableEq, Repr

namespace Sender

/-- A connection on which nothing was sent. -/
def init : Sender C α := ⟨none, [], []⟩

section calls

variable (B : MessageBlock C α)

/-- `m_pTransport->SendData(*m_pMbSendBuf)` with `buf` for `*m_pMbSendBuf`: what is left unread of
it, and what the transport took. -/
def sendData (buf : C) (r : Reply) : C × List α :=
  (B.advanceChainedReadPtr r.taken buf, (B.data buf).take r.taken)

/-- `SendMessage` with a chain of the caller's. `DuplicateChained` gives the stream read pointers
of its own, so the last `AdvanceChainedReadPtr` moves only the caller's. -/
def sendMessage (s : Sender C α) (aData : C) (r : Reply) : Sender C α :=
  let buf := match s.sendBuf with
    | none => aData
    | some b => B.append b aData
  let (left, out) := sendData B buf r
  { sendBuf := B.reclaimGarbage left, given := s.given ++ B.data aData,
    consumed := s.consumed ++ out }

/-- `SendMessage` with `*m_pMbSendBuf`, which is `b`: here the last `AdvanceChainedReadPtr` moves
the read pointers of the stream. No new data is given. -/
def sendMessageBuf (s : Sender C α) (b : C) (r : Reply) : Sender C α :=
  let dwTotal := B.getChainedLength b
  let (left, out) := sendData B b r
  { s with
    sendBuf := B.reclaimGarbage (B.advanceChainedReadPtr dwTotal left)
    consumed := s.consumed ++ out }

/-- `OnSend`. -/
def onSend (s : Sender C α) (r : Reply) : Sender C α :=
  match s.sendBuf with
  | none => s
  | some b =>
      let (left, out) := sendData B b r
      { s with sendBuf := B.reclaimGarbage left, consumed := s.consumed ++ out }

/-- One call. There is no `*m_pMbSendBuf` to call with while the pointer is `NULL`. -/
def step (s : Sender C α) : SendCall C → Option (Sender C α)
  | .sendMessage aData r => some (s.sendMessage B aData r)
  | .sendMessageBuf r => s.sendBuf.map fun b => s.sendMessageBuf B b r
  | .onSend r => some (s.onSend B r)

/-- **Conservation**: what was given is what was consumed followed by what is waiting, and
`m_pMbSendBuf` is `NULL` exactly when everything has been consumed. -/
def Conserved (s : Sender C α) : Prop :=
  s.given = s.consumed ++ B.unread s.sendBuf ∧ (s.sendBuf = none ↔ s.consumed = s.given)

instance [DecidableEq C] [DecidableEq α] (s : Sender C α) : Decidable (s.Conserved B) :=
  inferInstanceAs (Decidable (_ ∧ (_ ↔ _)))

/-- The condition on a call: if it is made with `m_pMbSendBuf` itself, the transport takes all. -/
def TakesAll (s : Sender C α) : SendCall C → Prop
  | .sendMessageBuf r => (B.unread s.sendBuf).length ≤ r.taken
  | .sendMessage _ _ | .onSend _ => True

/-! ### The chain and the bytes of the stream -/

/-- The sender `s` is the sending side of the stream `x`. -/
def Represents (s : Sender C α) (x : CFSStreamBase α) : Prop := x.sendBuf = B.unread s.sendBuf

/-- The same call on the stream of bytes. -/
def onStream (x : CFSStreamBase α) : SendCall C → CFSStreamBase α
  | .sendMessage aData r => x.sendMessage (B.data aData) r.taken
  | .sendMessageBuf r => x.sendMessageBuf r.taken
  | .onSend r => x.onSend r.taken

end calls

variable {B : MessageBlock C α} {s s' : Sender C α}

theorem unread_append (p : Option C) (aData : C) :
    B.data (match p with | none => aData | some b => B.append b aData)
      = B.unread p ++ B.data aData := by
  cases p with
  | none => rfl
  | some b => exact B.data_append b aData

theorem unread_sendMessage (s : Sender C α) (aData : C) (r : Reply) :
    B.unread (s.sendMessage B aData r).sendBuf =
      (B.unread s.sendBuf ++ B.data aData).drop r.taken := by
  rw [← unread_append, ← B.data_advanceChainedReadPtr]
  exact B.unread_reclaimGarbage _

theorem unread_onSend (s : Sender C α) (r : Reply) :
    B.unread (s.onSend B r).sendBuf = (B.unread s.sendBuf).drop r.taken := by
  rw [onSend]
  split
  · next h =>
    rw [h]
    exact List.drop_nil.symm
  · next b h =>
    rw [h]
    exact (B.unread_reclaimGarbage _).trans (B.data_advanceChainedReadPtr r.taken b)

/-- **Refinement.** A call on the chain is the same call on the bytes. -/
theorem represents_step {x : CFSStreamBase α} {a : SendCall C} (h : s.Represents B x)
    (hs : s.step B a = some s') : s'.Represents B (onStream B x a) := by
  cases a with
  | sendMessage aData r =>
    obtain rfl : s.sendMessage B aData r = s' := Option.some.inj hs
    rw [Represents, unread_sendMessage, ← h]
    rfl
  | sendMessageBuf r =>
    obtain ⟨b, hb, rfl⟩ := Option.map_eq_some_iff.mp hs
    have hx : x.sendBuf = B.data b := by
      rw [h, hb]
      rfl
    rw [Represents, sendMessageBuf, B.unread_reclaimGarbage, B.data_advanceChainedReadPtr,
      B.getChainedLength_eq]
    change (x.sendBuf.drop r.taken).drop x.sendBuf.length = _
    rw [hx, sendData, B.data_advanceChainedReadPtr]
  | onSend r =>
    obtain rfl : s.onSend B r = s' := Option.some.inj hs
    rw [Represents, unread_onSend, ← h]
    rfl

/-! ### Conservation -/

/-- With a buffer fresh from `ReclaimGarbage`, the second half of conservation follows from the
first. -/
theorem conserved_reclaimGarbage_iff {given consumed : List α} {c : C} :
    Conserved B ⟨B.reclaimGarbage c, given, consumed⟩ ↔ given = consumed ++ B.data c := by
  rw [Conserved, B.unread_reclaimGarbage, B.reclaimGarbage_eq_none_iff]
  refine ⟨And.left, fun h => ⟨h, ?_⟩⟩
  rw [h]
  exact List.self_eq_append_right.symm

/-- `SendData` splits what it is offered. -/
theorem take_append_advance (n : ℕ) (buf : C) :
    (B.data buf).take n ++ B.data (B.advanceChainedReadPtr n buf) = B.data buf := by
  rw [B.data_advanceChainedReadPtr, List.take_append_drop]

theorem conserved_init : Conserved B init := ⟨rfl, iff_of_true rfl rfl⟩

theorem Conserved.sendMessage (h : s.Conserved B) (aData : C) (r : Reply) :
    (s.sendMessage B aData r).Conserved B := by
  refine conserved_reclaimGarbage_iff.mpr ?_
  rw [List.append_assoc, take_append_advance, unread_append, h.1, List.append_assoc]

theorem Conserved.onSend (h : s.Conserved B) (r : Reply) : (s.onSend B r).Conserved B := by
  rw [Sender.onSend]
  split
  · exact h
  · next b hb =>
    refine conserved_reclaimGarbage_iff.mpr ?_
    rw [List.append_assoc, take_append_advance, h.1, hb]
    rfl

/-- The call with `m_pMbSendBuf` itself leaves nothing waiting. -/
theorem conserved_sendMessageBuf_iff {b : C} (h : s.Conserved B) (hb : s.sendBuf = some b)
    (r : Reply) : (s.sendMessageBuf B b r).Conserved B ↔ (B.data b).length ≤ r.taken := by
  have hgiven : s.given = s.consumed ++ B.data b := by
    rw [h.1, hb]
    rfl
  have hleft : B.data (B.advanceChainedReadPtr (B.getChainedLength b) (sendData B b r).1) = [] := by
    rw [B.data_advanceChainedReadPtr, sendData, B.data_advanceChainedReadPtr, List.drop_drop,
      B.getChainedLength_eq]
    exact List.drop_eq_nil_of_le (Nat.le_add_left _ _)
  rw [sendMessageBuf, conserved_reclaimGarbage_iff, hleft, List.append_nil, hgiven,
    List.append_cancel_left_eq]
  exact List.take_self_eq_iff (B.data b)

/-- A call keeps conservation exactly when it meets the condition. -/
theorem takesAll_iff (h : s.Conserved B) (a : SendCall C) :
    s.TakesAll B a ↔ ∀ s' ∈ s.step B a, s'.Conserved B := by
  cases a with
  | sendMessage aData r =>
    refine iff_of_true trivial ?_
    rintro _ ⟨⟩
    exact h.sendMessage aData r
  | sendMessageBuf r =>
    constructor
    · intro hok s' hs'
      obtain ⟨b, hb, rfl⟩ := Option.map_eq_some_iff.mp hs'
      rw [TakesAll, hb] at hok
      exact (conserved_sendMessageBuf_iff h hb r).mpr hok
    · intro hall
      cases hb : s.sendBuf with
      | none =>
        rw [TakesAll, hb]
        exact Nat.zero_le _
      | some b =>
        rw [TakesAll, hb]
        refine (conserved_sendMessageBuf_iff h hb r).mp (hall _ ?_)
        exact Option.map_eq_some_iff.mpr ⟨b, hb, rfl⟩
  | onSend r =>
    refine iff_of_true trivial ?_
    rintro _ ⟨⟩
    exact h.onSend r

/-- **Conservation along a run.** Whatever the transport takes and answers, conservation holds in
every state exactly when it takes everything in each call made with `m_pMbSendBuf` itself. -/
theorem always_conserved_iff (B : MessageBlock C α) (as : List (SendCall C)) :
    Always (step B) (Conserved B) init as ↔ Admitted (step B) (TakesAll B) init as :=
  always_iff_admitted (fun _ h => h) (fun _ a h => takesAll_iff h a)
    (fun _ _ _ _ _ h => h) as conserved_init

/-- One byte waits because the transport took nothing; the call with `m_pMbSendBuf` itself, to a
transport that again takes nothing, drops it. -/
theorem sendMessageBuf_drops :
    exec (step (.blocks (α := UInt8))) init
        [.sendMessage [[7]] ⟨0, .partialData⟩, .sendMessageBuf ⟨0, .partialData⟩]
      = some ⟨none, [7], []⟩ ∧ ¬ Conserved (.blocks (α := UInt8)) ⟨none, [7], []⟩ := by
  decide

end Sender

end VosStack.Stream
