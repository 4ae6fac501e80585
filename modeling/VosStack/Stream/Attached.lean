import VosStack.Stream.Base

/-!
# `m_bConnected`

The flag is to say that a transport is attached which was opened with this sink. It is set in
`SetTransportHandle` and cleared in `OnDisconnect`, and nowhere else:

* `Connect` and `Close` drop the transport and leave the flag;
* a `SetTransportHandle` whose `OpenWithSink` fails attaches the transport and leaves the flag;
* `OnConnectIndication` calls `OnConnected` also when `SetTransportHandle` has failed.

`Clean` turns this list into the exact condition under which flag and transport agree all along a
run.

The connect indications and the disconnects may come at any time, also against the assertions on
top of `OnConnectIndication`; `OnConnected` and `OnPeerDisconnect` are the subclass's and do not
call back.
-/

namespace VosStack.Stream

open Transition

variable {α : Type*}

/-- A stream, with what has become of its transport. -/
structure Link (α : Type*) where
  stream : CFSStreamBase α
  /-- `OpenWithSink` of the attached transport succeeded -/
  opened : Bool
  /-- `m_bConnected` at each call of `OnConnected` -/
  onConnected : List Bool
  deriving DecidableEq, Repr

/-- The calls that attach or drop a transport. A `NULL` pointer is `none`; `opened` is whether
`OpenWithSink` succeeds. -/
inductive LinkCall
  | connect (created : Bool)
  | close
  | setTransportHandle (pTransport : Option ℕ) (opened : Bool)
  | onConnectIndication (aReason : CAWResult) (aTrpt : Option ℕ) (opened : Bool)
  | onDisconnect
  deriving DecidableEq, Repr

namespace Link

/-- A new stream. -/
def init : Link α := ⟨.init, false, []⟩

/-- The transport is dropped, which leads to the stream `x`. -/
def drop (s : Link α) (x : CFSStreamBase α) : Link α := { s with stream := x, opened := false }

/-- `SetTransportHandle`: the new state and the result. -/
def setTransportHandle (s : Link α) (pTransport : Option ℕ) (opened : Bool) :
    Link α × CAWResult :=
  match pTransport with
  | none => (s, .failure)
  | some trpt =>
      ({ s with stream := s.stream.setTransportHandle trpt opened, opened := opened },
        if opened then .ok else .failure)

/-- `OnConnectIndication`: the result of `SetTransportHandle` is traced and forgotten. -/
def onConnectIndication (s : Link α) (aReason : CAWResult) (aTrpt : Option ℕ) (opened : Bool) :
    Link α :=
  if aReason.succeeded then
    let (s, _) := s.setTransportHandle aTrpt opened
    { s with onConnected := s.onConnected ++ [s.stream.connected] }
  else s

/-- One call. -/
def step (s : Link α) : LinkCall → Option (Link α)
  | .connect created => some (s.drop (s.stream.connect created))
  | .close => some (s.drop s.stream.close)
  | .setTransportHandle pTransport opened => some (s.setTransportHandle pTransport opened).1
  | .onConnectIndication aReason aTrpt opened =>
      some (s.onConnectIndication aReason aTrpt opened)
  | .onDisconnect => some (s.drop s.stream.onDisconnect)

/-- The flag is set exactly when a transport is attached that was opened. -/
def FlagRight (s : Link α) : Prop :=
  s.stream.connected = true ↔ s.stream.transport ≠ none ∧ s.opened = true

/-- **Agreement**: the flag is right, and it was set at each `OnConnected`. -/
def Agrees (s : Link α) : Prop := s.FlagRight ∧ ∀ flag ∈ s.onConnected, flag = true

/-- The condition on a call. -/
def Clean (s : Link α) : LinkCall → Prop
  | .connect _ | .close => s.stream.connected = false
  | .setTransportHandle none _ | .onDisconnect => True
  | .setTransportHandle (some _) opened => opened = true ∨ s.stream.connected = false
  | .onConnectIndication aReason none _ => aReason.succeeded → s.stream.connected = true
  | .onConnectIndication aReason (some _) opened => aReason.succeeded → opened = true

variable {s : Link α}

theorem agrees_init : Agrees (init : Link α) :=
  ⟨iff_of_false Bool.false_ne_true fun h => Bool.false_ne_true h.2, List.forall_mem_nil _⟩

/-- Once the transport is dropped, the flag has to be down. -/
theorem flagRight_drop_iff {x : CFSStreamBase α} (hx : x.transport = none) :
    (s.drop x).FlagRight ↔ x.connected = false := by
  rw [← Bool.not_eq_true]
  exact iff_false_right fun h => h.1 hx

/-- The flag is right after a non-`NULL` transport was handed over exactly when it was opened, or
the flag was down before. -/
theorem flagRight_setTransportHandle_iff (trpt : ℕ) (opened : Bool) :
    (s.setTransportHandle (some trpt) opened).1.FlagRight ↔
      opened = true ∨ s.stream.connected = false := by
  have hsome : some trpt ≠ none := Option.some_ne_none trpt
  change ((opened || s.stream.connected) = true ↔ some trpt ≠ none ∧ opened = true) ↔ _
  rw [and_iff_right hsome]
  cases opened <;> cases s.stream.connected <;> decide

/-- `SetTransportHandle` does not call `OnConnected`. -/
theorem onConnected_setTransportHandle (pTransport : Option ℕ) (opened : Bool) :
    (s.setTransportHandle pTransport opened).1.onConnected = s.onConnected := by
  cases pTransport <;> rfl

/-- A further `OnConnected` has to find the flag set. -/
theorem agrees_snoc_iff (h : ∀ flag ∈ s.onConnected, flag = true) :
    Agrees { s with onConnected := s.onConnected ++ [s.stream.connected] } ↔
      s.FlagRight ∧ s.stream.connected = true :=
  and_congr_right fun _ => forall_mem_snoc_iff h

/-- A call keeps the agreement exactly when it meets the condition. -/
theorem clean_iff (h : s.Agrees) (a : LinkCall) :
    s.Clean a ↔ ∀ s' ∈ s.step a, s'.Agrees := by
  have hlog : ∀ x, (s.drop x).Agrees ↔ (s.drop x).FlagRight := fun _ => and_iff_left h.2
  cases a with
  | connect created =>
    have hdropped : (s.stream.connect created).transport = none := by cases created <;> rfl
    have hflag : (s.stream.connect created).connected = s.stream.connected := by
      cases created <;> rfl
    rw [step, forall_mem_some_iff, hlog, flagRight_drop_iff hdropped, hflag]
    rfl
  | close =>
    rw [step, forall_mem_some_iff, hlog, flagRight_drop_iff rfl]
    rfl
  | setTransportHandle pTransport opened =>
    rw [step, forall_mem_some_iff]
    cases pTransport with
    | none => exact iff_of_true trivial h
    | some trpt =>
      exact (flagRight_setTransportHandle_iff trpt opened).symm.trans (and_iff_left h.2).symm
  | onConnectIndication aReason aTrpt opened =>
    rw [step, forall_mem_some_iff, onConnectIndication]
    split_ifs with hreason
    · rw [agrees_snoc_iff ((onConnected_setTransportHandle aTrpt opened).symm ▸ h.2)]
      cases aTrpt with
      | none => exact (imp_iff_right hreason).trans (and_iff_right h.1).symm
      | some trpt =>
        -- an unopened transport leaves the flag as it was: down, or up for another one
        rw [flagRight_setTransportHandle_iff, Clean, imp_iff_right hreason]
        change opened = true ↔ _ ∧ (opened || s.stream.connected) = true
        cases opened <;> cases s.stream.connected <;> decide
    · refine iff_of_true ?_ h
      cases aTrpt <;> exact fun hr => absurd hr hreason
  | onDisconnect =>
    rw [step, forall_mem_some_iff, hlog]
    exact iff_of_true trivial ((flagRight_drop_iff rfl).mpr rfl)

/-- **Agreement along a run.** The flag tells the truth in every state, and at every
`OnConnected`, exactly when each call meets the condition. -/
theorem always_agrees_iff (as : List LinkCall) :
    Always step Agrees (init : Link α) as ↔ Admitted step Clean (init : Link α) as :=
  always_iff_admitted (fun _ h => h) (fun _ a h => clean_iff h a)
    (fun _ _ _ _ _ h => h) as agrees_init

/-- After a local `Close` the flag is still set and no transport is attached. -/
theorem close_leaves_connected :
    ∃ s, exec step (init : Link UInt8)
        [.connect true, .onConnectIndication .ok (some 0) true, .close] = some s ∧
      s.stream.connected = true ∧ s.stream.transport = none ∧ ¬ s.Agrees :=
  ⟨_, rfl, rfl, rfl, fun h => (h.1.mp rfl).1 rfl⟩

end Link

end VosStack.Stream
