import VosStack.Stream.Framing

/-!
# One stream, several connections

A `CFSStreamBase` outlives its transports: `Connect`, `Close`, `OnDisconnect` and
`SetTransportHandle` replace the transport and leave `m_pMbRcvBuf` and `m_pMbSendBuf` as
they are; only the destructor clears them. Half a message received on one connection is
therefore completed with bytes of the next, and data that one transport did not take is
sent on the next.

To say where a byte came from, the stream is run over bytes that carry the number of the
transport they were received on, or given to `SendMessage` under; `HandleMessage` does not
see the number. `Drained` is the condition under which connections stay apart: a transport
is attached only when both buffers are empty.
-/

namespace VosStack.Stream

open Transition

/-- A byte with the number of its transport. -/
abbrev TaggedByte := UInt8 × ℕ

/-- What passes between the stream and the outside. -/
inductive LogEntry
  /-- an `OnReceive` shows these bytes (maybe none) to `HandleMessage` while `trpt` is
  attached -/
  | handleMessage (trpt : ℕ) (shown : List TaggedByte)
  /-- these bytes are passed to `SendData` of `trpt` -/
  | sendData (trpt : ℕ) (aData : List TaggedByte)
  deriving DecidableEq, Repr

/-- All bytes of the entry belong to its transport. -/
def LogEntry.Own : LogEntry → Prop
  | .handleMessage trpt shown => ∀ b ∈ shown, b.2 = trpt
  | .sendData trpt aData => ∀ b ∈ aData, b.2 = trpt

instance : ∀ e, Decidable (LogEntry.Own e)
  | .handleMessage _ shown => inferInstanceAs (Decidable (∀ b ∈ shown, _))
  | .sendData _ aData => inferInstanceAs (Decidable (∀ b ∈ aData, _))

/-- A stream with its history. -/
structure Session where
  stream : CFSStreamBase TaggedByte
  /-- the number of transports attached so far -/
  attached : ℕ
  log : List LogEntry
  deriving DecidableEq, Repr

/-- The calls made on a stream. -/
inductive Action
  | connect (created : Bool)
  | onConnectIndication (aReason : CAWResult) (opened : Bool)
  | setTransportHandle (opened : Bool)
  | onDisconnect
  | close
  | onReceive (aTrptId : ℕ) (aData : Bytes)
  | sendMessage (aData : Bytes) (taken : ℕ)
  | sendMessageBuf (taken : ℕ)
  | onSend (aTrptId : ℕ) (taken : ℕ)
  | setRcvBufferSize (bufferSize : ℕ)
  deriving DecidableEq, Repr

namespace Session

/-- A new stream. -/
def init : Session := ⟨.init, 0, []⟩

/-- `SetTransportHandle` with a transport that was not attached before. -/
def attach (s : Session) (opened : Bool) : Session :=
  { s with
    stream := s.stream.setTransportHandle (s.attached + 1) opened
    attached := s.attached + 1 }

/-- The bytes `d`, with the number of their transport. -/
def tag (trpt : ℕ) (d : Bytes) : List TaggedByte := d.map fun b => (b, trpt)

/-- One call. An upcall of a transport that is not the attached one, an indication while a
transport is attached or without a connector, contradict the assertions; `SendMessage`
without a transport returns an error. -/
def step (handleMessage : Bytes → ℕ) (s : Session) : Action → Option Session
  | .connect created => some { s with stream := s.stream.connect created }
  | .onConnectIndication aReason opened =>
      if s.stream.transport = none ∧ s.stream.connector = true then
        if aReason.succeeded then some (s.attach opened) else some s
      else none
  | .setTransportHandle opened => some (s.attach opened)
  | .onDisconnect => some { s with stream := s.stream.onDisconnect }
  | .close => some { s with stream := s.stream.close }
  | .onReceive aTrptId aData =>
      if s.stream.transport = some aTrptId then
        let h : List TaggedByte → ℕ := fun x => handleMessage (x.map Prod.fst)
        some { s with
          stream := (s.stream.onReceive h (tag aTrptId aData)).1
          log := s.log ++ [.handleMessage aTrptId (s.stream.shown (tag aTrptId aData))] }
      else none
  | .sendMessage aData taken =>
      match s.stream.transport with
      | some k =>
          some { s with
            stream := s.stream.sendMessage (tag k aData) taken
            log := s.log ++ [.sendData k (s.stream.sendBuf ++ tag k aData)] }
      | none => some s
  | .sendMessageBuf taken =>
      match s.stream.transport with
      | some k =>
          some { s with
            stream := s.stream.sendMessageBuf taken
            log := s.log ++ [.sendData k s.stream.sendBuf] }
      | none => some s
  | .onSend aTrptId taken =>
      if s.stream.transport = some aTrptId then
        some { s with
          stream := s.stream.onSend taken
          log := s.log ++ [.sendData aTrptId s.stream.sendBuf] }
      else none
  | .setRcvBufferSize bufferSize =>
      some { s with stream := s.stream.setRcvBufferSize bufferSize }

/-- The condition on a step: a transport is attached only to a stream whose buffers are
empty. -/
def Drained (s : Session) : Action → Prop
  | .onConnectIndication aReason _ =>
      aReason.succeeded = true → s.stream.rcvBuf = [] ∧ s.stream.sendBuf = []
  | .setTransportHandle _ => s.stream.rcvBuf = [] ∧ s.stream.sendBuf = []
  | _ => True

instance (s : Session) : ∀ a, Decidable (s.Drained a)
  | .onConnectIndication aReason _ =>
      inferInstanceAs (Decidable (aReason.succeeded = true → _ ∧ _))
  | .setTransportHandle _ => inferInstanceAs (Decidable (_ ∧ _))
  | .connect _ | .onDisconnect | .close | .onReceive _ _ | .sendMessage _ _
  | .sendMessageBuf _ | .onSend _ _ | .setRcvBufferSize _ => inferInstanceAs (Decidable True)

/-! ### The invariant -/

/-- What is buffered while a transport is attached belongs to it, and so does what has
passed. -/
structure Separate (s : Session) : Prop where
  rcvBuf : ∀ k, s.stream.transport = some k → ∀ b ∈ s.stream.rcvBuf, b.2 = k
  sendBuf : ∀ k, s.stream.transport = some k → ∀ b ∈ s.stream.sendBuf, b.2 = k
  log : ∀ e ∈ s.log, e.Own

variable {s s' : Session} {handleMessage : Bytes → ℕ} {a : Action}

theorem separate_init : Separate init := by
  constructor <;> simp [init, CFSStreamBase.init]

theorem snd_of_mem_tag {k : ℕ} {d : Bytes} {b : TaggedByte} (h : b ∈ tag k d) : b.2 = k := by
  obtain ⟨_, _, rfl⟩ := List.mem_map.mp h
  rfl

/-- Appending one's own bytes. -/
private theorem own_append {k : ℕ} {x : List TaggedByte} (hx : ∀ b ∈ x, b.2 = k) (d : Bytes) :
    ∀ b ∈ x ++ tag k d, b.2 = k := by
  intro b hb
  rcases List.mem_append.mp hb with h | h
  · exact hx b h
  · exact snd_of_mem_tag h

/-- Attaching a transport to a stream with empty buffers. -/
theorem Separate.attach (hs : Separate s)
    (hd : s.stream.rcvBuf = [] ∧ s.stream.sendBuf = []) (opened : Bool) :
    Separate (s.attach opened) where
  rcvBuf _ _ := by simp [Session.attach, CFSStreamBase.setTransportHandle, hd.1]
  sendBuf _ _ := by simp [Session.attach, CFSStreamBase.setTransportHandle, hd.2]
  log := hs.log

/-- `OnReceive` buffers only what it had or got. -/
theorem mem_rcvBuf_onReceive (h : List TaggedByte → ℕ) (s : CFSStreamBase TaggedByte)
    (d : List TaggedByte) {b : TaggedByte} (hb : b ∈ (s.onReceive h d).1.rcvBuf) :
    b ∈ s.rcvBuf ++ d := by
  rcases CFSStreamBase.onReceive_cases h s d with ⟨-, he⟩ | ⟨-, -, he⟩ | ⟨ms, r, -, he, hp⟩
  · rw [he] at hb
    exact List.mem_append_left d hb
  · rw [he] at hb
    exact List.mem_append_left d hb
  · rw [he] at hb
    rw [← hp.flatten_append]
    exact List.mem_append_right _ hb

theorem mem_shown {α : Type*} {s : CFSStreamBase α} {d : List α} {b : α}
    (hb : b ∈ s.shown d) : b ∈ s.rcvBuf ++ d := by
  unfold CFSStreamBase.shown at hb
  split at hb
  · exact absurd hb List.not_mem_nil
  · exact hb

/-- Losing the transport keeps `Separate`: nothing is claimed of an unattached stream. -/
private theorem Separate.detach (hs : Separate s) {t : CFSStreamBase TaggedByte}
    (ht : t.transport = none) : Separate { s with stream := t } where
  rcvBuf _ hk := absurd (ht.symm.trans hk) nofun
  sendBuf _ hk := absurd (ht.symm.trans hk) nofun
  log := hs.log

theorem Separate.step (hs : Separate s) (ha : s.Drained a)
    (h : s.step handleMessage a = some s') : Separate s' := by
  cases a with
  | connect created =>
    obtain rfl := Option.some.inj h
    exact hs.detach (by cases created <;> rfl)
  | onConnectIndication aReason opened =>
    simp only [Session.step] at h
    split_ifs at h with _ hok
    · obtain rfl := Option.some.inj h
      exact hs.attach (ha hok) opened
    · obtain rfl := Option.some.inj h
      exact hs
  | setTransportHandle opened =>
    obtain rfl := Option.some.inj h
    exact hs.attach ha opened
  | onDisconnect =>
    obtain rfl := Option.some.inj h
    exact hs.detach rfl
  | close =>
    obtain rfl := Option.some.inj h
    exact hs.detach rfl
  | onReceive aTrptId aData =>
    simp only [Session.step] at h
    split_ifs at h with ht
    obtain rfl := Option.some.inj h
    have hown := own_append (hs.rcvBuf aTrptId ht) aData
    have hmem : ∀ b ∈ (s.stream.onReceive (fun x => handleMessage (x.map Prod.fst))
        (tag aTrptId aData)).1.rcvBuf, b.2 = aTrptId :=
      fun b hb => hown b (mem_rcvBuf_onReceive _ _ _ hb)
    obtain ⟨rcvBuf, rcvOverBuffer, hframe⟩ := s.stream.onReceive_frame
      (fun x => handleMessage (x.map Prod.fst)) (tag aTrptId aData)
    rw [hframe] at hmem ⊢
    refine ⟨fun k hk => ?_, hs.sendBuf, (forall_mem_snoc_iff hs.log).mpr fun b hb => ?_⟩
    · obtain rfl : aTrptId = k := Option.some.inj (ht.symm.trans hk)
      exact hmem
    · exact hown b (mem_shown hb)
  | sendMessage aData taken =>
    simp only [Session.step] at h
    split at h
    case h_2 => obtain rfl := Option.some.inj h; exact hs
    case h_1 k hk =>
    obtain rfl := Option.some.inj h
    have hown := own_append (hs.sendBuf k hk) aData
    refine ⟨hs.rcvBuf, fun k' hk' b hb => ?_, (forall_mem_snoc_iff hs.log).mpr hown⟩
    obtain rfl : k = k' := Option.some.inj (hk.symm.trans hk')
    exact hown b (List.mem_of_mem_drop hb)
  | sendMessageBuf taken =>
    simp only [Session.step] at h
    split at h
    case h_2 => obtain rfl := Option.some.inj h; exact hs
    case h_1 k hk =>
    obtain rfl := Option.some.inj h
    refine ⟨hs.rcvBuf, fun k' hk' b hb => ?_, (forall_mem_snoc_iff hs.log).mpr (hs.sendBuf k hk)⟩
    exact hs.sendBuf k' hk' b (List.mem_of_mem_drop (List.mem_of_mem_drop hb))
  | onSend aTrptId taken =>
    simp only [Session.step] at h
    split_ifs at h with ht
    obtain rfl := Option.some.inj h
    have hown := hs.sendBuf aTrptId ht
    refine ⟨hs.rcvBuf, fun k hk b hb => ?_, (forall_mem_snoc_iff hs.log).mpr hown⟩
    exact hs.sendBuf k hk b (List.mem_of_mem_drop hb)
  | setRcvBufferSize bufferSize =>
    obtain rfl := Option.some.inj h
    exact ⟨hs.rcvBuf, hs.sendBuf, hs.log⟩

/-! ### The results -/

/-- **Connections stay apart.** In every state reached by calls that attach a transport only
to a stream with empty buffers, every byte shown to `HandleMessage` while the `k`-th
transport is attached was received on it, and every byte passed to its `SendData` was given
to `SendMessage` while it was attached. -/
theorem connections_separate (handleMessage : Bytes → ℕ)
    (h : Reach (Session.step handleMessage) Drained init s) : ∀ e ∈ s.log, e.Own :=
  (h.induct separate_init fun _ _ _ hs ha hstep => hs.step ha hstep).log

/-- Two connections one after the other, each with a message of two bytes. -/
theorem connections_separate_two :
    ∃ s, Reach (Session.step (CFSStreamBase.fixedLength 2)) Drained init s ∧
      s.log = [.handleMessage 1 [(7, 1), (8, 1)], .sendData 1 [(9, 1)],
        .handleMessage 2 [(7, 2)], .handleMessage 2 [(7, 2), (8, 2)]] ∧
      ∀ e ∈ s.log, e.Own := by
  have hrun : Reach (Session.step (CFSStreamBase.fixedLength 2)) Drained init _ := reach_of_exec
    [.setTransportHandle true, .onReceive 1 [7, 8], .sendMessage [9] 1, .onDisconnect,
      .connect true, .onConnectIndication .ok true, .onReceive 2 [7], .onReceive 2 [8]]
    (by decide) rfl
  exact ⟨_, hrun, rfl, connections_separate _ hrun⟩

/-- **A stream carries bytes from one connection into the next.** Half a message and unsent
data are left when the first transport disconnects; the second transport completes the
message and sends the data. -/
theorem connections_leak :
    ∃ s, Reachable (Session.step (CFSStreamBase.fixedLength 2)) init s ∧
      .handleMessage 2 [(7, 1), (8, 2)] ∈ s.log ∧ .sendData 2 [(9, 1)] ∈ s.log ∧
      ¬(LogEntry.handleMessage 2 [(7, 1), (8, 2)]).Own ∧
      ¬(LogEntry.sendData 2 [(9, 1)]).Own := by
  have hrun : Reachable (Session.step (CFSStreamBase.fixedLength 2)) init _ := reachable_of_exec
    [.setTransportHandle true, .onReceive 1 [7], .sendMessage [9] 0, .onDisconnect,
      .setTransportHandle true, .onReceive 2 [8], .onSend 2 1] rfl
  exact ⟨_, hrun, by decide, by decide, by decide, by decide⟩

end Session

end VosStack.Stream
